import Mathlib.Data.List.Basic
import Mathlib.Data.List.Infix
import Mathlib.Tactic.Linarith

/-!
# Go strings

A Go string is read here as the list of its characters: the outputs of `sinfo` and `sacct`
are text, and every separator the fetchers split on (`,`, `:`, `=`, `|`, `(`, newline, quote)
is ASCII, so byte offsets and character offsets select the same pieces.

* `strings.TrimSpace` / `bytes.TrimSpace` drop Unicode white space (`unicode.IsSpace`) at both
  ends; `strings.Trim(s, cutset)` drops the characters of `cutset`.
* `strings.Split` / `bytes.Split` on a one-character separator is `List.splitOn`.
* `strings.Contains`, `strings.HasPrefix` are `List.IsInfix`, `List.IsPrefix`.
* `strings.ToLower` is `toLower`: it lowers the ASCII letters. Go also lowers other letters,
  but none of them to an ASCII letter except `İ` (to `i`) and the Kelvin sign (to `k`), so the
  one use, a test for the ASCII word `gpu`, has the same outcome.
-/

namespace SlurmExporter

/-- Results of fallible code are compared by value. -/
instance decEqExcept {ε α : Type} [DecidableEq ε] [DecidableEq α] : DecidableEq (Except ε α)
  | .error a, .error b => decidable_of_iff (a = b) ⟨congrArg _, Except.error.inj⟩
  | .ok a, .ok b => decidable_of_iff (a = b) ⟨congrArg _, Except.ok.inj⟩
  | .error _, .ok _ => isFalse fun h => Except.noConfusion h
  | .ok _, .error _ => isFalse fun h => Except.noConfusion h

@[simp] theorem except_ok_bind {ε α β : Type} (x : α) (f : α → Except ε β) :
    (Except.ok x >>= f) = f x := rfl

@[simp] theorem except_error_bind {ε α β : Type} (e : ε) (f : α → Except ε β) :
    (Except.error e >>= f) = Except.error e := rfl

theorem except_bind_eq_ok {ε α β : Type} {x : Except ε α} {f : α → Except ε β} {r : β} :
    x >>= f = .ok r ↔ ∃ a, x = .ok a ∧ f a = .ok r := by
  cases x <;> simp

end SlurmExporter

namespace SlurmExporter.Go

/-- `unicode.IsSpace`: the Latin-1 spaces and the other Unicode `White_Space` characters. -/
def isSpace (c : Char) : Bool :=
  c = '\t' || c = '\n' || c = '\x0b' || c = '\x0c' || c = '\r' || c = ' ' ||
  c = '\x85' || c = '\xa0' || c = '\u1680' || ('\u2000' ≤ c && c ≤ '\u200a') ||
  c = '\u2028' || c = '\u2029' || c = '\u202f' || c = '\u205f' || c = '\u3000'

/-- Drops the characters satisfying `p` at the end of `s`. -/
def dropWhileRight (p : Char → Bool) (s : List Char) : List Char :=
  (s.reverse.dropWhile p).reverse

/-- `strings.TrimSpace` and `bytes.TrimSpace`. -/
def trimSpace (s : List Char) : List Char := dropWhileRight isSpace (s.dropWhile isSpace)

/-- `strings.Trim(s, cutset)`. -/
def trim (s cutset : List Char) : List Char :=
  dropWhileRight (· ∈ cutset) (s.dropWhile (· ∈ cutset))

/-- ASCII lower case. -/
def asciiLower (c : Char) : Char :=
  if 'A' ≤ c ∧ c ≤ 'Z' then Char.ofNat (c.toNat + 32) else c

/-- `strings.ToLower`, on the ASCII letters (see the module docstring). -/
def toLower (s : List Char) : List Char := s.map asciiLower

@[simp] theorem toLower_nil : toLower [] = [] := rfl

@[simp] theorem toLower_cons (c : Char) (s : List Char) :
    toLower (c :: s) = asciiLower c :: toLower s := rfl

@[simp] theorem length_toLower (s : List Char) : (toLower s).length = s.length :=
  List.length_map _ _

theorem toLower_take (n : ℕ) (s : List Char) : toLower (s.take n) = (toLower s).take n :=
  List.map_take _ _ _

/-- `strings.Index(s, string(c))`, `none` for `-1`. -/
def index : List Char → Char → Option ℕ
  | [], _ => none
  | a :: s, c => if a = c then some 0 else (index s c).map (· + 1)

theorem index_eq_none {s : List Char} {c : Char} (h : c ∉ s) : index s c = none := by
  induction s with
  | nil => rfl
  | cons a s ih =>
    simp only [List.mem_cons, not_or] at h
    simp [index, Ne.symm h.1, ih h.2]

theorem index_append_cons {k v : List Char} {c : Char} (hk : c ∉ k) :
    index (k ++ c :: v) c = some k.length := by
  induction k with
  | nil => simp [index]
  | cons a k ih =>
    simp only [List.mem_cons, not_or] at hk
    simp [index, Ne.symm hk.1, ih hk.2]

theorem prefix_append_cons_iff {p k v : List Char} {c : Char} (hp : c ∉ p) :
    p <+: k ++ c :: v ↔ p <+: k := by
  refine ⟨fun h => ?_, fun h => h.trans (List.prefix_append _ _)⟩
  by_cases hl : p.length ≤ k.length
  · exact List.prefix_of_prefix_length_le h (List.prefix_append k _) hl
  · have hkc : k ++ [c] <+: p :=
      List.prefix_of_prefix_length_le ⟨v, by simp⟩ h (by simp; omega)
    exact absurd (hkc.subset (by simp)) hp

/-! ## Letter case

`asciiLower` only moves `A`–`Z` to `a`–`z`: on code points it adds `32` to `65`–`90`. -/

theorem char_eq_iff {c d : Char} : c = d ↔ c.toNat = d.toNat :=
  ⟨congrArg _, fun h => Char.ext (UInt32.eq_of_toBitVec_eq (BitVec.eq_of_toNat_eq h))⟩

theorem asciiLower_toNat (c : Char) :
    (asciiLower c).toNat = if 65 ≤ c.toNat ∧ c.toNat ≤ 90 then c.toNat + 32 else c.toNat := by
  have hA : 'A' ≤ c ↔ 65 ≤ c.toNat := Iff.rfl
  have hZ : c ≤ 'Z' ↔ c.toNat ≤ 90 := Iff.rfl
  unfold asciiLower
  simp only [hA, hZ]
  split_ifs with h
  · have hv : (c.toNat + 32).isValidChar := Or.inl (by omega)
    rw [Char.ofNat, dif_pos hv]; rfl
  · rfl

@[simp] theorem asciiLower_asciiLower (c : Char) : asciiLower (asciiLower c) = asciiLower c := by
  rw [char_eq_iff, asciiLower_toNat, asciiLower_toNat]; split_ifs <;> omega

@[simp] theorem toLower_toLower (s : List Char) : toLower (toLower s) = toLower s := by
  simp [toLower]

theorem asciiLower_eq_iff {c : Char} (d : Char)
    (hd : ¬ (65 ≤ d.toNat ∧ d.toNat ≤ 90) ∧ ¬ (97 ≤ d.toNat ∧ d.toNat ≤ 122)) :
    asciiLower c = d ↔ c = d := by
  rw [char_eq_iff, char_eq_iff, asciiLower_toNat]; split_ifs <;> omega

theorem asciiLower_eq_letter_iff {c : Char} (d D : Char)
    (hd : 97 ≤ d.toNat ∧ d.toNat ≤ 122 ∧ D.toNat + 32 = d.toNat) :
    asciiLower c = d ↔ c = d ∨ c = D := by
  rw [char_eq_iff, char_eq_iff, char_eq_iff, asciiLower_toNat]; split_ifs <;> omega

theorem asciiLower_ne_upper {c : Char} (D : Char) (hD : 65 ≤ D.toNat ∧ D.toNat ≤ 90) :
    asciiLower c ≠ D := by
  rw [Ne, char_eq_iff, asciiLower_toNat]; split_ifs <;> omega

theorem mem_toLower_iff {c : Char} {s : List Char}
    (hc : ¬ (65 ≤ c.toNat ∧ c.toNat ≤ 90) ∧ ¬ (97 ≤ c.toNat ∧ c.toNat ≤ 122)) :
    c ∈ toLower s ↔ c ∈ s := by
  simp [toLower, asciiLower_eq_iff c hc]

/-! ## Trimming -/

theorem dropWhile_eq_self {p : Char → Bool} {s : List Char} (h : ∀ c ∈ s.head?, p c = false) :
    s.dropWhile p = s := by
  cases s with
  | nil => rfl
  | cons c s => simp [List.dropWhile_cons, h c rfl]

theorem dropWhileRight_eq_self {p : Char → Bool} {s : List Char}
    (h : ∀ c ∈ s.getLast?, p c = false) : dropWhileRight p s = s := by
  unfold dropWhileRight
  rw [dropWhile_eq_self (by simpa [List.head?_reverse] using h), List.reverse_reverse]

theorem trimSpace_eq_self {s : List Char} (h1 : ∀ c ∈ s.head?, isSpace c = false)
    (h2 : ∀ c ∈ s.getLast?, isSpace c = false) : trimSpace s = s := by
  unfold trimSpace; rw [dropWhile_eq_self h1, dropWhileRight_eq_self h2]

theorem trimSpace_of_forall {s : List Char} (h : ∀ c ∈ s, isSpace c = false) :
    trimSpace s = s :=
  trimSpace_eq_self (fun c hc => h c (List.mem_of_mem_head? hc))
    (fun c hc => h c (List.mem_of_mem_getLast? hc))

theorem trim_eq_self {s cutset : List Char} (h1 : ∀ c ∈ s.head?, c ∉ cutset)
    (h2 : ∀ c ∈ s.getLast?, c ∉ cutset) : trim s cutset = s := by
  unfold trim
  rw [dropWhile_eq_self (by simpa using h1), dropWhileRight_eq_self (by simpa using h2)]

theorem trimSpace_nil : trimSpace [] = [] := rfl

theorem dropWhile_append_cons_of_not {p : Char → Bool} {c : Char} (hc : p c = false)
    (a b : List Char) : (a ++ c :: b).dropWhile p = a.dropWhile p ++ c :: b := by
  rw [List.dropWhile_append]
  split_ifs with h
  · rw [List.isEmpty_iff.mp h, List.dropWhile_cons, if_neg (by simp [hc])]; rfl
  · rfl

theorem dropWhileRight_append_of_not {p : Char → Bool} {c : Char} (hc : p c = false)
    (a : List Char) : dropWhileRight p (a ++ [c]) = a ++ [c] :=
  dropWhileRight_eq_self (by simp [hc])

theorem dropWhileRight_append_of {p : Char → Bool} {c : Char} (hc : p c = true)
    (a : List Char) : dropWhileRight p (a ++ [c]) = dropWhileRight p a := by
  simp [dropWhileRight, List.dropWhile_cons, hc]

theorem trimSpace_sublist (s : List Char) : List.Sublist (trimSpace s) s := by
  unfold trimSpace dropWhileRight
  have h := (List.dropWhile_sublist isSpace (l := (s.dropWhile isSpace).reverse)).reverse
  rw [List.reverse_reverse] at h
  exact h.trans (List.dropWhile_sublist _)

/-! ## Splitting -/

/-- The parts of a split contain no separator; the first part is a prefix, every part an infix. -/
theorem splitOnP_parts {α : Type} (p : α → Bool) : ∀ l : List α,
    (∀ x ∈ l.splitOnP p, (∀ c ∈ x, p c = false) ∧ x <:+: l) ∧
      ∀ x ∈ (l.splitOnP p).head?, x <+: l
  | [] => by simp
  | a :: l => by
    obtain ⟨ih, ihd⟩ := splitOnP_parts p l
    obtain ⟨y, ys, e⟩ : ∃ y ys, l.splitOnP p = y :: ys :=
      List.exists_cons_of_ne_nil (List.splitOnP_ne_nil p l)
    rw [e] at ih ihd
    have hy : y <+: l := ihd y rfl
    have htail : ∀ x ∈ ys, (∀ c ∈ x, p c = false) ∧ x <:+: a :: l := fun x hx =>
      ⟨(ih x (List.mem_cons_of_mem _ hx)).1,
        (ih x (List.mem_cons_of_mem _ hx)).2.trans (List.suffix_cons a l).isInfix⟩
    rw [List.splitOnP_cons, e]
    split_ifs with ha
    · refine ⟨fun x hx => ?_, by simp⟩
      rcases List.mem_cons.mp hx with rfl | hx
      · simp
      · rcases List.mem_cons.mp hx with rfl | hx
        · exact ⟨(ih x (List.mem_cons_self _ _)).1,
            (ih x (List.mem_cons_self _ _)).2.trans (List.suffix_cons a l).isInfix⟩
        · exact htail x hx
    · have hay : a :: y <+: a :: l := (List.prefix_cons_inj a).mpr hy
      rw [List.modifyHead_cons]
      refine ⟨fun x hx => ?_, by simpa using hay⟩
      rcases List.mem_cons.mp hx with rfl | hx
      · refine ⟨fun c hc => ?_, hay.isInfix⟩
        rcases List.mem_cons.mp hc with rfl | hc
        · simpa using ha
        · exact (ih y (List.mem_cons_self _ _)).1 c hc
      · exact htail x hx

theorem splitOn_append_cons (c : Char) (a b : List Char) :
    (a ++ c :: b).splitOn c = a.splitOn c ++ b.splitOn c := by
  simp only [List.splitOn]
  induction a with
  | nil => simp [List.splitOnP_cons]
  | cons x a ih =>
    rw [List.cons_append, List.splitOnP_cons, List.splitOnP_cons, ih]
    split_ifs
    · rfl
    · obtain ⟨y, ys, e⟩ := List.exists_cons_of_ne_nil (List.splitOnP_ne_nil (· == c) a)
      rw [e]; rfl

theorem splitOn_append_of_not_mem {c : Char} {a : List Char} (ha : c ∉ a) (b : List Char) :
    (a ++ b).splitOn c = (b.splitOn c).modifyHead (a ++ ·) := by
  simp only [List.splitOn]
  induction a with
  | nil =>
    obtain ⟨y, ys, e⟩ := List.exists_cons_of_ne_nil (List.splitOnP_ne_nil (· == c) b)
    rw [List.nil_append, e]; rfl
  | cons x a ih =>
    simp only [List.mem_cons, not_or] at ha
    rw [List.cons_append, List.splitOnP_cons, if_neg (by simpa using Ne.symm ha.1), ih ha.2]
    obtain ⟨y, ys, e⟩ := List.exists_cons_of_ne_nil (List.splitOnP_ne_nil (· == c) b)
    rw [e]; rfl

theorem splitOn_of_not_mem {c : Char} {s : List Char} (h : c ∉ s) : s.splitOn c = [s] :=
  List.splitOnP_eq_single _ _ (by simpa using fun x hx (e : x = c) => h (e ▸ hx))

/-- `len(strings.Split(s, sep)) < 2` exactly when `s` has no separator. -/
theorem length_splitOn_lt_two_iff {c : Char} {s : List Char} :
    (s.splitOn c).length < 2 ↔ c ∉ s := by
  refine ⟨fun h hc => ?_, fun h => by simp [splitOn_of_not_mem h]⟩
  obtain ⟨a, b, rfl⟩ := List.append_of_mem hc
  rw [splitOn_append_cons, List.length_append] at h
  have ha := List.length_pos.mpr (List.splitOnP_ne_nil (· == c) a)
  have hb := List.length_pos.mpr (List.splitOnP_ne_nil (· == c) b)
  simp only [List.splitOn] at h
  omega

theorem intercalate_cons_cons (c : Char) (a b : List Char) (L : List (List Char)) :
    [c].intercalate (a :: b :: L) = a ++ c :: [c].intercalate (b :: L) := by
  simp [List.intercalate]

/-- Lowering commutes with splitting on a character that is not a letter. -/
theorem splitOn_toLower {c : Char}
    (hc : ¬ (65 ≤ c.toNat ∧ c.toNat ≤ 90) ∧ ¬ (97 ≤ c.toNat ∧ c.toNat ≤ 122)) (s : List Char) :
    (toLower s).splitOn c = (s.splitOn c).map toLower := by
  simp only [List.splitOn, toLower]
  induction s with
  | nil => rfl
  | cons x s ih =>
    have hx : (asciiLower x == c) = (x == c) := by simp [asciiLower_eq_iff c hc]
    rw [List.map_cons, List.splitOnP_cons, List.splitOnP_cons, hx, ih]
    split_ifs
    · rfl
    · obtain ⟨y, ys, e⟩ := List.exists_cons_of_ne_nil (List.splitOnP_ne_nil (· == c) s)
      rw [e]; rfl

theorem not_mem_of_mem_splitOn {c : Char} {s p : List Char} (hp : p ∈ s.splitOn c) : c ∉ p :=
  fun h => by simpa using (splitOnP_parts (· == c) s).1 p hp |>.1 c h

theorem infix_of_mem_splitOn {c : Char} {s p : List Char} (hp : p ∈ s.splitOn c) : p <:+: s :=
  ((splitOnP_parts (· == c) s).1 p hp).2

/-! ## Lines

`fetchAllocatedGpus` trims the whole output, splits it into lines, trims each line and skips the
empty ones. Trimming the whole output first changes none of the lines it keeps
(`trimLines_trimSpace`). -/

/-- The non-empty trimmed lines of `s`. -/
def trimLines (s : List Char) : List (List Char) :=
  ((s.splitOn '\n').map trimSpace).filter (· ≠ [])

theorem trimSpace_cons_space {c : Char} (hc : isSpace c = true) (l : List Char) :
    trimSpace (c :: l) = trimSpace l := by
  simp [trimSpace, List.dropWhile_cons, hc]

theorem trimSpace_append_space {c : Char} (hc : isSpace c = true) (l : List Char) :
    trimSpace (l ++ [c]) = trimSpace l := by
  unfold trimSpace dropWhileRight
  rw [List.dropWhile_append]
  split_ifs with h
  · simp [List.isEmpty_iff.mp h, List.dropWhile_cons, hc]
  · simp [List.dropWhile_cons, hc]

theorem splitOn_append_single {sep c : Char} (hc : c ≠ sep) : ∀ t : List Char,
    ∃ ls l, t.splitOn sep = ls ++ [l] ∧ (t ++ [c]).splitOn sep = ls ++ [l ++ [c]]
  | [] => ⟨[], [], rfl, by simp [List.splitOn, List.splitOnP_cons, hc]⟩
  | x :: t => by
    obtain ⟨ls, l, e1, e2⟩ := splitOn_append_single hc t
    simp only [List.splitOn] at e1 e2 ⊢
    rw [List.cons_append, List.splitOnP_cons, List.splitOnP_cons, e1, e2]
    split_ifs
    · exact ⟨[] :: ls, l, rfl, rfl⟩
    · cases ls with
      | nil => exact ⟨[], x :: l, rfl, rfl⟩
      | cons y ys => exact ⟨(x :: y) :: ys, l, rfl, rfl⟩

theorem trimLines_cons_space {c : Char} (hc : isSpace c = true) (s : List Char) :
    trimLines (c :: s) = trimLines s := by
  unfold trimLines
  simp only [List.splitOn, List.splitOnP_cons]
  obtain ⟨y, ys, e⟩ := List.exists_cons_of_ne_nil (List.splitOnP_ne_nil (· == '\n') s)
  split_ifs
  · simp [trimSpace_nil]
  · rw [e]; simp [trimSpace_cons_space hc]

theorem trimLines_append_space {c : Char} (hc : isSpace c = true) (t : List Char) :
    trimLines (t ++ [c]) = trimLines t := by
  unfold trimLines
  by_cases hn : c = '\n'
  · subst hn
    rw [splitOn_append_cons]
    simp [List.splitOn, trimSpace_nil]
  · obtain ⟨ls, l, e1, e2⟩ := splitOn_append_single hn t
    rw [e1, e2]
    simp [trimSpace_append_space hc]

/-- Trimming the whole output keeps its lines. -/
theorem trimLines_trimSpace (s : List Char) : trimLines (trimSpace s) = trimLines s := by
  have hfront : ∀ s : List Char, trimLines (s.dropWhile isSpace) = trimLines s := by
    intro s
    induction s with
    | nil => rfl
    | cons c s ih =>
      by_cases hc : isSpace c = true
      · rw [List.dropWhile_cons, if_pos hc, ih, trimLines_cons_space hc]
      · rw [List.dropWhile_cons, if_neg hc]
  have hback : ∀ ws t : List Char, (∀ c ∈ ws, isSpace c = true) →
      trimLines (t ++ ws) = trimLines t := by
    intro ws
    induction ws with
    | nil => simp
    | cons c ws ih =>
      intro t h
      rw [show t ++ c :: ws = (t ++ [c]) ++ ws by simp,
        ih _ fun d hd => h d (List.mem_cons_of_mem _ hd),
        trimLines_append_space (h c (List.mem_cons_self _ _))]
  have hu : ∀ u : List Char,
      dropWhileRight isSpace u ++ (u.reverse.takeWhile isSpace).reverse = u := fun u => by
    rw [dropWhileRight, ← List.reverse_append, List.takeWhile_append_dropWhile,
      List.reverse_reverse]
  calc trimLines (trimSpace s)
      = trimLines (dropWhileRight isSpace (s.dropWhile isSpace) ++
          ((s.dropWhile isSpace).reverse.takeWhile isSpace).reverse) :=
        (hback _ _ fun c hc => List.mem_takeWhile_imp (List.mem_reverse.mp hc)).symm
    _ = trimLines s := by rw [hu, hfront]

end SlurmExporter.Go
