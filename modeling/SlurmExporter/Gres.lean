import SlurmExporter.Strconv

/-!
# `parseGresGpuCount`

The GPU count of a node's GRES string or a job's TRES string (`gpus.go`), in the order the
code tests the forms:

1. the sentinels `""`, `N/A`, `(null)` give `0`;
2. a string with `=` is TRES: the first comma-separated part with the prefix `gres/gpu` and a
   value `ParseFloat` reads gives that value (`tresGpuCount`), else `0`;
3. a string with `,` is a legacy list: the parts are counted by the same function and summed
   from `0.0`, left to right;
4. otherwise one legacy token: cut at `(`, `0` unless it contains `gpu` in any case and a `:`,
   else the value of its last `:`-field, `0` when `ParseFloat` rejects it (`gresTokenCount`).

The recursive call only ever receives a comma-free part, where the comma branch is not taken,
so two levels of `parseGresGpuCountWith` are the whole recursion (`parseGresGpuCount_eq`).
-/

namespace SlurmExporter

set_option maxRecDepth 20000

open Go Strconv

/-- The TRES branch: the first `gres/gpu` part whose value after `=` `ParseFloat` reads. -/
def tresGpuCount : List (List Char) → F64
  | [] => 0
  | part :: parts =>
    let part := trimSpace part
    if "gres/gpu".toList <+: part then
      match index part '=' with
      | some eqIdx =>
        if eqIdx < part.length - 1 then
          match parseFloat (part.drop (eqIdx + 1)) with
          | .ok count => count
          | .error _ => tresGpuCount parts
        else tresGpuCount parts
      | none => tresGpuCount parts
    else tresGpuCount parts

/-- The last `:`-field of a token, the count of `gpu:2` and `gpu:tesla:4`. -/
def lastField (gres : List Char) : List Char := ((gres.splitOn ':').getLast?).getD []

theorem lastField_toLower (g : List Char) : lastField (toLower g) = toLower (lastField g) := by
  unfold lastField
  rw [splitOn_toLower (by decide), List.getLast?_map]
  cases (g.splitOn ':').getLast? <;> rfl

/-- The single-token branch: cut at `(`, require `gpu` and a `:`, read the last `:`-field. -/
def gresTokenCount (gres : List Char) : F64 :=
  let gres := match index gres '(' with
    | some idx => gres.take idx
    | none => gres
  if !decide ("gpu".toList <:+: toLower gres) then 0
  else if (gres.splitOn ':').length < 2 then 0
  else
    match parseFloat (lastField gres) with
    | .ok count => count
    | .error _ => 0

/-- The sentinels that mean no GRES. -/
def IsGresSentinel (gres : List Char) : Prop :=
  gres = [] ∨ gres = "N/A".toList ∨ gres = "(null)".toList

instance : DecidablePred IsGresSentinel := fun g =>
  inferInstanceAs (Decidable (g = [] ∨ g = "N/A".toList ∨ g = "(null)".toList))

theorem IsGresSentinel.eq_not_mem {g : List Char} (h : IsGresSentinel g) : '=' ∉ g := by
  rcases h with rfl | rfl | rfl <;> decide

/-- One level of `parseGresGpuCount`, the recursive call being `recur`. -/
def parseGresGpuCountWith (recur : List Char → F64) (gres : List Char) : F64 :=
  if IsGresSentinel gres then 0
  else if '=' ∈ gres then tresGpuCount (gres.splitOn ',')
  else if ',' ∈ gres then
    (gres.splitOn ',').foldl (fun total part => total + recur (trimSpace part)) 0
  else gresTokenCount gres

/-- `parseGresGpuCount`. -/
def parseGresGpuCount : List Char → F64 :=
  parseGresGpuCountWith (parseGresGpuCountWith fun _ => 0)

/-! ## The recursion -/

section Branches

variable {r : List Char → F64} {gres : List Char}

theorem parseGresGpuCountWith_sentinel (h : IsGresSentinel gres) :
    parseGresGpuCountWith r gres = 0 := by
  simp [parseGresGpuCountWith, h]

theorem parseGresGpuCountWith_tres (hs : ¬ IsGresSentinel gres) (he : '=' ∈ gres) :
    parseGresGpuCountWith r gres = tresGpuCount (gres.splitOn ',') := by
  simp [parseGresGpuCountWith, hs, he]

theorem parseGresGpuCountWith_list (hs : ¬ IsGresSentinel gres) (he : '=' ∉ gres)
    (hc : ',' ∈ gres) :
    parseGresGpuCountWith r gres =
      (gres.splitOn ',').foldl (fun total part => total + r (trimSpace part)) 0 := by
  simp [parseGresGpuCountWith, hs, he, hc]

theorem parseGresGpuCountWith_token (hs : ¬ IsGresSentinel gres) (he : '=' ∉ gres)
    (hc : ',' ∉ gres) : parseGresGpuCountWith r gres = gresTokenCount gres := by
  simp [parseGresGpuCountWith, hs, he, hc]

theorem parseGresGpuCountWith_of_not_mem {r' : List Char → F64} (h : ',' ∉ gres) :
    parseGresGpuCountWith r gres = parseGresGpuCountWith r' gres := by
  simp [parseGresGpuCountWith, h]

end Branches

/-- `parseGresGpuCount` satisfies the recursive definition of `gpus.go`. -/
theorem parseGresGpuCount_eq (gres : List Char) :
    parseGresGpuCount gres = parseGresGpuCountWith parseGresGpuCount gres := by
  unfold parseGresGpuCount
  by_cases hs : IsGresSentinel gres
  · rw [parseGresGpuCountWith_sentinel hs, parseGresGpuCountWith_sentinel hs]
  by_cases he : '=' ∈ gres
  · rw [parseGresGpuCountWith_tres hs he, parseGresGpuCountWith_tres hs he]
  by_cases hc : ',' ∈ gres
  · rw [parseGresGpuCountWith_list hs he hc, parseGresGpuCountWith_list hs he hc]
    refine List.foldl_ext _ _ _ fun total part hp => ?_
    have hnc : ',' ∉ trimSpace part := fun h =>
      not_mem_of_mem_splitOn hp ((trimSpace_sublist part).subset h)
    show total + _ = total + parseGresGpuCountWith (parseGresGpuCountWith fun _ => 0) _
    exact congrArg (HAdd.hAdd total) (parseGresGpuCountWith_of_not_mem hnc)
  · exact parseGresGpuCountWith_of_not_mem hc

/-! ## TRES strings

A TRES string is a list of `key=value` pairs joined by commas. The TRES branch returns the
value of the first pair whose key has the textual prefix `gres/gpu` and whose value
`ParseFloat` reads: a typed `gres/gpu:<type>`, a `gres/gpumem` or a `gres/gpuutil` pair is
taken as well as `gres/gpu`, whichever comes first. -/

section Tres

def tresString (pairs : List (List Char × List Char)) : List Char :=
  [','].intercalate (pairs.map fun kv => kv.1 ++ '=' :: kv.2)

/-- A pair the TRES branch reads whole: no `,`, `=` or white space, and a value. -/
def TresPair (kv : List Char × List Char) : Prop :=
  (∀ c ∈ kv.1 ++ kv.2, c ≠ ',' ∧ c ≠ '=' ∧ isSpace c = false) ∧ kv.2 ≠ []

instance : DecidablePred TresPair := fun kv =>
  inferInstanceAs (Decidable ((∀ c ∈ kv.1 ++ kv.2, c ≠ ',' ∧ c ≠ '=' ∧ isSpace c = false) ∧
    kv.2 ≠ []))

/-- The value of the first pair with the prefix `gres/gpu` that `ParseFloat` reads, else `0`. -/
def firstGpuValue : List (List Char × List Char) → F64
  | [] => 0
  | (k, v) :: ps =>
    if "gres/gpu".toList <+: k then
      match parseFloat v with
      | .ok count => count
      | .error _ => firstGpuValue ps
    else firstGpuValue ps

variable {k v : List Char}

theorem TresPair.eq_not_mem (h : TresPair (k, v)) : '=' ∉ k :=
  fun he => (h.1 '=' (List.mem_append_left _ he)).2.1 rfl

theorem TresPair.comma_not_mem (h : TresPair (k, v)) : ',' ∉ k ++ '=' :: v := by
  intro hc
  rcases List.mem_append.mp hc with hc | hc
  · exact (h.1 ',' (List.mem_append_left _ hc)).1 rfl
  · rcases List.mem_cons.mp hc with hc | hc
    · exact absurd hc (by decide)
    · exact (h.1 ',' (List.mem_append_right _ hc)).1 rfl

theorem TresPair.trimSpace_eq (h : TresPair (k, v)) :
    trimSpace (k ++ '=' :: v) = k ++ '=' :: v := by
  refine trimSpace_of_forall fun c hc => ?_
  rcases List.mem_append.mp hc with hc | hc
  · exact (h.1 c (List.mem_append_left _ hc)).2.2
  · rcases List.mem_cons.mp hc with rfl | hc
    · rfl
    · exact (h.1 c (List.mem_append_right _ hc)).2.2

theorem tresGpuCount_cons (h : TresPair (k, v)) (parts : List (List Char)) :
    tresGpuCount ((k ++ '=' :: v) :: parts) =
      if "gres/gpu".toList <+: k then
        match parseFloat v with
        | .ok count => count
        | .error _ => tresGpuCount parts
      else tresGpuCount parts := by
  have hlen : k.length < (k ++ '=' :: v).length - 1 := by
    simpa using List.length_pos.mpr h.2
  simp only [tresGpuCount, h.trimSpace_eq, index_append_cons h.eq_not_mem, if_pos hlen,
    prefix_append_cons_iff (show '=' ∉ "gres/gpu".toList by decide)]
  simp

theorem tresGpuCount_map {ps : List (List Char × List Char)} (h : ∀ kv ∈ ps, TresPair kv) :
    tresGpuCount (ps.map fun kv => kv.1 ++ '=' :: kv.2) = firstGpuValue ps := by
  induction ps with
  | nil => rfl
  | cons kv ps ih =>
    obtain ⟨k, v⟩ := kv
    rw [List.map_cons, tresGpuCount_cons (h _ (List.mem_cons_self _ _)), firstGpuValue,
      ih fun kv hkv => h kv (List.mem_cons_of_mem _ hkv)]

/-- On a TRES string, the first pair with the prefix `gres/gpu` and a value `ParseFloat` reads. -/
theorem parseGresGpuCount_tresString {ps : List (List Char × List Char)}
    (h : ∀ kv ∈ ps, TresPair kv) : parseGresGpuCount (tresString ps) = firstGpuValue ps := by
  cases ps with
  | nil => exact parseGresGpuCountWith_sentinel (Or.inl rfl)
  | cons kv ps =>
    have hsplit : (tresString (kv :: ps)).splitOn ',' =
        (kv :: ps).map fun kv => kv.1 ++ '=' :: kv.2 := by
      refine List.splitOn_intercalate _ ',' (fun l hl => ?_) (by simp)
      obtain ⟨kv, hkv, rfl⟩ := List.mem_map.mp hl
      exact (h kv hkv).comma_not_mem
    have he : '=' ∈ tresString (kv :: ps) := by
      have hkv : kv.1 ++ '=' :: kv.2 ∈ (tresString (kv :: ps)).splitOn ',' := by simp [hsplit]
      exact (infix_of_mem_splitOn hkv).subset (by simp)
    rw [parseGresGpuCount, parseGresGpuCountWith_tres (fun hs => hs.eq_not_mem he) he, hsplit,
      tresGpuCount_map h]

/-- `gres/gpumem` has the prefix `gres/gpu`: `cpu=4,gres/gpumem=16` counts `16` GPUs. -/
theorem parseGresGpuCount_tresString_gpumem :
    parseGresGpuCount (tresString [("cpu".toList, "4".toList), ("gres/gpumem".toList, "16".toList)]) =
      16 :=
  (parseGresGpuCount_tresString (by decide)).trans (by decide)

/-- A typed pair before `gres/gpu=2` is counted instead of it. -/
theorem parseGresGpuCount_tres_typed_first :
    parseGresGpuCount "gres/gpu:tesla=1,gres/gpu=2".toList = 1 := by
  decide

end Tres

/-! ## Legacy GRES lists

A legacy list is comma-separated tokens `b` or `b(x)`, the annotation `x` an index or socket
list such as `IDX:0,2`. Its own commas split a token into a first part, cut at `(` and counted
as `b`, and fragments without `g`, each counted `0`. The parts' counts are summed left to
right from `0.0`, so the list counts the left-to-right sum of its tokens' counts: float
addition is not associative, and the order of the tokens matters. -/

section Legacy

/-- A legacy GRES token: a name `b` and an optional annotation `x`, written `b(x)`. -/
structure GresToken where
  base : List Char
  annot : Option (List Char)
  deriving DecidableEq

def GresToken.render (t : GresToken) : List Char :=
  match t.annot with
  | none => t.base
  | some x => t.base ++ '(' :: (x ++ [')'])

def annotChars : List Char := "0123456789-:,IDXS".toList

/-- A token of the claimed form: a plain name and an index or socket annotation. -/
def GresToken.Valid (t : GresToken) : Prop :=
  t.base ≠ [] ∧ (∀ c ∈ t.base, c ≠ ',' ∧ c ≠ '(' ∧ c ≠ ')' ∧ c ≠ '=' ∧ isSpace c = false) ∧
    ∀ x ∈ t.annot, ∀ c ∈ x, c ∈ annotChars

instance : DecidablePred GresToken.Valid := fun t =>
  inferInstanceAs (Decidable (t.base ≠ [] ∧
    (∀ c ∈ t.base, c ≠ ',' ∧ c ≠ '(' ∧ c ≠ ')' ∧ c ≠ '=' ∧ isSpace c = false) ∧
    ∀ x ∈ t.annot, ∀ c ∈ x, c ∈ annotChars))

/-- The count of one token: its last `:`-field read by `ParseFloat` when it names GPUs, else
`0`. -/
def GresToken.count (t : GresToken) : F64 :=
  if "gpu".toList <:+: toLower t.base ∧ ':' ∈ t.base then
    match parseFloat (lastField t.base) with
    | .ok count => count
    | .error _ => 0
  else 0

def legacyGres (ts : List GresToken) : List Char := [','].intercalate (ts.map GresToken.render)

theorem gresTokenCount_sentinel {g : List Char} (h : IsGresSentinel g) : gresTokenCount g = 0 := by
  rcases h with rfl | rfl | rfl <;> decide

theorem parseGresGpuCount_token {g : List Char} (he : '=' ∉ g) (hc : ',' ∉ g) :
    parseGresGpuCount g = gresTokenCount g := by
  by_cases hs : IsGresSentinel g
  · rw [parseGresGpuCount, parseGresGpuCountWith_sentinel hs, gresTokenCount_sentinel hs]
  · exact parseGresGpuCountWith_token hs he hc

theorem parseGresGpuCount_parts {g : List Char} (he : '=' ∉ g)
    (hs : ∀ c ∈ g, isSpace c = false) :
    0 + parseGresGpuCount g = ((g.splitOn ',').map gresTokenCount).foldl (· + ·) 0 := by
  by_cases hc : ',' ∈ g
  · have hpart : ∀ p ∈ g.splitOn ',', parseGresGpuCount (trimSpace p) = gresTokenCount p :=
      fun p hp => by
        have hsub := (infix_of_mem_splitOn hp).subset
        rw [trimSpace_of_forall fun c hc => hs c (hsub hc)]
        exact parseGresGpuCount_token (fun h => he (hsub h)) (not_mem_of_mem_splitOn hp)
    have hs' : ¬ IsGresSentinel g := fun h => by
      rcases h with rfl | rfl | rfl <;> revert hc <;> decide
    rw [parseGresGpuCount_eq, parseGresGpuCountWith_list hs' he hc,
      List.foldl_ext _ _ _ fun total p hp => congrArg (total + ·) (hpart p hp), ← List.foldl_map,
      F64.zero_eq, F64.posZero_add (F64.foldl_add_ne_negZero (F64.zero_eq ▸ F64.zero_ne_negZero) _)]
  · rw [parseGresGpuCount_token he hc, splitOn_of_not_mem hc]; rfl

section
variable {t : GresToken}

theorem GresToken.gresTokenCount_base (h : '(' ∉ t.base) : gresTokenCount t.base = t.count := by
  simp only [gresTokenCount, GresToken.count, index_eq_none h, length_splitOn_lt_two_iff]
  by_cases hg : "gpu".toList <:+: toLower t.base <;> by_cases hc : ':' ∈ t.base <;> simp [hg, hc]

theorem gresTokenCount_append_paren {b : List Char} (h : '(' ∉ b) (y : List Char) :
    gresTokenCount (b ++ '(' :: y) = gresTokenCount b := by
  simp only [gresTokenCount, index_append_cons h, index_eq_none h, List.take_left]

theorem gresTokenCount_of_no_g {g : List Char} (h : ∀ c ∈ g, asciiLower c ≠ 'g') :
    gresTokenCount g = 0 := by
  have hcut : ∀ c ∈ (match index g '(' with
      | some idx => g.take idx
      | none => g), asciiLower c ≠ 'g' := by
    split
    · exact fun c hc => h c (List.mem_of_mem_take hc)
    · exact h
  have hgpu : ¬ "gpu".toList <:+: toLower (match index g '(' with
      | some idx => g.take idx
      | none => g) := fun hi => by
    obtain ⟨c, hc, hcg⟩ := List.mem_map.mp (hi.subset (List.mem_cons_self 'g' _))
    exact hcut c hc hcg
  simp only [gresTokenCount, hgpu, decide_False, Bool.not_false, if_true]

theorem GresToken.Valid.parts_render (ht : t.Valid) :
    ∃ zs, (t.render.splitOn ',').map gresTokenCount = t.count :: zs ∧ ∀ z ∈ zs, z = 0 := by
  obtain ⟨-, hb, hx⟩ := ht
  have hbp : '(' ∉ t.base := fun h => (hb _ h).2.1 rfl
  have hbc : ',' ∉ t.base := fun h => (hb _ h).1 rfl
  unfold GresToken.render
  split
  · rw [splitOn_of_not_mem hbc]
    exact ⟨[], by simp [t.gresTokenCount_base hbp], by simp⟩
  · rename_i x hx'
    have hfrag : ∀ c ∈ x ++ [')'], asciiLower c ≠ 'g' ∧ c ≠ '(' := by
      have hann : ∀ c ∈ annotChars ++ [')'], asciiLower c ≠ 'g' ∧ c ≠ '(' := by decide
      exact fun c hc => hann c (by
        rcases List.mem_append.mp hc with hc | hc
        · exact List.mem_append_left _ (hx x hx' c hc)
        · exact List.mem_append_right _ hc)
    obtain ⟨y, ys, e⟩ := List.exists_cons_of_ne_nil (List.splitOnP_ne_nil (· == ',') (x ++ [')']))
    have e' : (x ++ [')']).splitOn ',' = y :: ys := e
    have hys : ∀ p ∈ y :: ys, p <:+: x ++ [')'] := fun p hp => infix_of_mem_splitOn (e' ▸ hp)
    refine ⟨ys.map gresTokenCount, ?_, ?_⟩
    · rw [show t.base ++ '(' :: (x ++ [')']) = (t.base ++ ['(']) ++ (x ++ [')']) by simp,
        splitOn_append_of_not_mem (by
          simp only [List.mem_append, List.mem_singleton, not_or]; exact ⟨hbc, by decide⟩), e']
      simp only [List.modifyHead_cons, List.map_cons, List.append_assoc, List.singleton_append,
        gresTokenCount_append_paren hbp, t.gresTokenCount_base hbp]
    · simp only [List.mem_map]
      rintro z ⟨p, hp, rfl⟩
      exact gresTokenCount_of_no_g fun c hc =>
        (hfrag c ((hys p (List.mem_cons_of_mem _ hp)).subset hc)).1

theorem GresToken.Valid.filter_parts (ht : t.Valid) :
    ((t.render.splitOn ',').map gresTokenCount).filter (· ≠ F64.posZero) =
      [t.count].filter (· ≠ F64.posZero) := by
  obtain ⟨zs, e, hz⟩ := ht.parts_render
  have hzs : zs.filter (· ≠ F64.posZero) = [] :=
    List.filter_eq_nil_iff.mpr fun z hzm => by simp [hz z hzm, F64.zero_eq]
  rw [e, List.filter_cons, List.filter_cons, hzs, List.filter_nil]

theorem GresToken.Valid.render_chars (ht : t.Valid) :
    ∀ c ∈ t.render, c ≠ '=' ∧ isSpace c = false := by
  obtain ⟨-, hb, hx⟩ := ht
  have hann : ∀ c ∈ '(' :: annotChars ++ [')'], c ≠ '=' ∧ isSpace c = false := by decide
  intro c hc
  unfold GresToken.render at hc
  split at hc
  · exact ⟨(hb c hc).2.2.2.1, (hb c hc).2.2.2.2⟩
  · rename_i x hx'
    rcases List.mem_append.mp hc with hc | hc
    · exact ⟨(hb c hc).2.2.2.1, (hb c hc).2.2.2.2⟩
    · refine hann c ?_
      rcases List.mem_cons.mp hc with rfl | hc
      · exact List.mem_cons_self _ _
      · rcases List.mem_append.mp hc with hc | hc
        · exact List.mem_cons_of_mem _ (List.mem_append_left _ (hx x hx' c hc))
        · exact List.mem_cons_of_mem _ (List.mem_append_right _ hc)

theorem GresToken.count_eq_of_toLower {t' : GresToken} (h : toLower t.base = toLower t'.base) :
    t.count = t'.count := by
  have hcolon : ':' ∈ t.base ↔ ':' ∈ t'.base := by
    rw [← mem_toLower_iff (by decide), h, mem_toLower_iff (by decide)]
  have hval : parseFloat (lastField t.base) = parseFloat (lastField t'.base) := by
    rw [← parseFloat_toLower, ← lastField_toLower, h, lastField_toLower, parseFloat_toLower]
  simp only [GresToken.count, h, hcolon, hval]

end

theorem legacyGres_cons_cons (t t' : GresToken) (ts : List GresToken) :
    legacyGres (t :: t' :: ts) = t.render ++ ',' :: legacyGres (t' :: ts) := by
  simp only [legacyGres, List.map_cons, intercalate_cons_cons]

theorem legacyGres_singleton (t : GresToken) : legacyGres [t] = t.render := by
  simp [legacyGres, List.intercalate]

theorem legacyGres_chars : ∀ {ts : List GresToken}, (∀ t ∈ ts, t.Valid) →
    ∀ c ∈ legacyGres ts, c ≠ '=' ∧ isSpace c = false
  | [], _ => by simp [legacyGres, List.intercalate]
  | [t], h => legacyGres_singleton t ▸ (h t (List.mem_singleton_self t)).render_chars
  | t :: t' :: ts, h => by
    rw [legacyGres_cons_cons]
    intro c hc
    rcases List.mem_append.mp hc with hc | hc
    · exact (h t (List.mem_cons_self _ _)).render_chars c hc
    · rcases List.mem_cons.mp hc with rfl | hc
      · decide
      · exact legacyGres_chars (fun u hu => h u (List.mem_cons_of_mem _ hu)) c hc

theorem legacyGres_parts_filter : ∀ (t : GresToken) (ts : List GresToken),
    (∀ u ∈ t :: ts, u.Valid) →
    (((legacyGres (t :: ts)).splitOn ',').map gresTokenCount).filter (· ≠ F64.posZero) =
      ((t :: ts).map GresToken.count).filter (· ≠ F64.posZero)
  | t, [], h => legacyGres_singleton t ▸ (h t (List.mem_singleton_self t)).filter_parts
  | t, t' :: ts, h => by
    rw [legacyGres_cons_cons, splitOn_append_cons, List.map_append, List.filter_append,
      (h t (List.mem_cons_self _ _)).filter_parts,
      legacyGres_parts_filter t' ts fun u hu => h u (List.mem_cons_of_mem _ hu),
      ← List.filter_append]
    rfl

/-- Added to `0.0`, a list of valid tokens counts the left-to-right sum of their counts. -/
theorem zero_add_parseGresGpuCount_legacyGres {ts : List GresToken} (h : ∀ t ∈ ts, t.Valid) :
    0 + parseGresGpuCount (legacyGres ts) = (ts.map GresToken.count).foldl (· + ·) 0 := by
  cases ts with
  | nil =>
    show 0 + parseGresGpuCount [] = 0
    rw [parseGresGpuCount, parseGresGpuCountWith_sentinel (Or.inl rfl), F64.zero_eq]
    exact F64.add_posZero (by decide)
  | cons t ts =>
    have hc := legacyGres_chars h
    rw [parseGresGpuCount_parts (fun he => (hc _ he).1 rfl) fun c hc' => (hc c hc').2]
    exact F64.foldl_add_eq_of_filter (legacyGres_parts_filter t ts h)

/-- Legacy lists count the sum of their tokens in order, whatever the letter case of the
names. -/
theorem parseGresGpuCount_legacy_sum (ts ts' : List GresToken) (h : ∀ t ∈ ts, t.Valid)
    (h' : ∀ t ∈ ts', t.Valid)
    (hcase : List.Forall₂ (fun t t' => toLower t.base = toLower t'.base) ts ts') :
    0 + parseGresGpuCount (legacyGres ts) = (ts.map GresToken.count).foldl (· + ·) 0 ∧
      0 + parseGresGpuCount (legacyGres ts') = 0 + parseGresGpuCount (legacyGres ts) := by
  have hcount : ts'.map GresToken.count = ts.map GresToken.count := by
    clear h h'
    induction hcase with
    | nil => rfl
    | cons hr _ ih => simp only [List.map_cons, ih, GresToken.count_eq_of_toLower hr]
  refine ⟨zero_add_parseGresGpuCount_legacyGres h, ?_⟩
  rw [zero_add_parseGresGpuCount_legacyGres h', zero_add_parseGresGpuCount_legacyGres h, hcount]

/-- `gpu:2(IDX:0,2),GPU:1` is the sum of its tokens, and counts as `GPU:2(IDX:0,2),gpu:1`. -/
theorem parseGresGpuCount_legacy_sum_idx :
    0 + parseGresGpuCount (legacyGres
        [GresToken.mk "gpu:2".toList (some "IDX:0,2".toList), GresToken.mk "GPU:1".toList none]) =
      (List.map GresToken.count
        [GresToken.mk "gpu:2".toList (some "IDX:0,2".toList), GresToken.mk "GPU:1".toList none]).foldl
        (· + ·) 0 ∧
    0 + parseGresGpuCount (legacyGres
        [GresToken.mk "GPU:2".toList (some "IDX:0,2".toList), GresToken.mk "gpu:1".toList none]) =
      0 + parseGresGpuCount (legacyGres
        [GresToken.mk "gpu:2".toList (some "IDX:0,2".toList), GresToken.mk "GPU:1".toList none]) :=
  parseGresGpuCount_legacy_sum _ _ (by decide) (by decide) (by decide)

/-- Token order matters: `2^53 + 1 + 1` rounds at each step, `1 + 1 + 2^53` is exact. -/
theorem parseGresGpuCount_legacy_order :
    parseGresGpuCount "gpu:9007199254740992,gpu:1,gpu:1".toList ≠
      parseGresGpuCount "gpu:1,gpu:1,gpu:9007199254740992".toList := by
  decide

end Legacy

/-! ## Whole counts

A GPU token's count field is usually a decimal numeral (`gpu:4`, `gpu:tesla:4(IDX:0-3)`). It is
read exactly, and a list of such tokens counts exactly the GPUs it names while their number is
below `2 ^ 53`. -/

section Whole

/-- The number of GPUs a token names, from its last `:`-field. -/
def GresToken.gpus (t : GresToken) : ℕ :=
  if "gpu".toList <:+: toLower t.base ∧ ':' ∈ t.base then decimalValue (lastField t.base) else 0

/-- A token whose count field, if it is counted, is a decimal numeral. -/
def GresToken.Whole (t : GresToken) : Prop :=
  "gpu".toList <:+: toLower t.base ∧ ':' ∈ t.base →
    lastField t.base ≠ [] ∧ ∀ c ∈ lastField t.base, isDigit c = true

instance : DecidablePred GresToken.Whole := fun t =>
  inferInstanceAs (Decidable (_ → lastField t.base ≠ [] ∧ ∀ c ∈ lastField t.base, _))

theorem GresToken.Whole.count_eq {t : GresToken} (h : t.Whole) (hn : t.gpus < 2 ^ 53) :
    t.count = F64.ofNat t.gpus := by
  unfold GresToken.count GresToken.gpus at *
  split_ifs at hn ⊢ with hg
  · obtain ⟨hne, hds⟩ := h hg
    rw [parseFloat_decimal hne hds, if_pos (by rw [F64.ofNat_eq_fin hn]; rfl)]
  · rfl

/-- Whole counts below `2 ^ 53` sum exactly. -/
theorem zero_add_parseGresGpuCount_whole {ts : List GresToken} (h : ∀ t ∈ ts, t.Valid ∧ t.Whole)
    (hn : (ts.map GresToken.gpus).sum < 2 ^ 53) :
    0 + parseGresGpuCount (legacyGres ts) = F64.ofNat (ts.map GresToken.gpus).sum := by
  have hf : List.Forall₂ (fun x n => 0 + x = F64.ofNat n) (ts.map GresToken.count)
      (ts.map GresToken.gpus) := by
    rw [List.forall₂_map_left_iff, List.forall₂_map_right_iff]
    refine List.forall₂_same.mpr fun t ht => ?_
    have hle : t.gpus < 2 ^ 53 := (List.le_sum_of_mem (List.mem_map_of_mem _ ht)).trans_lt hn
    rw [(h t ht).2.count_eq hle]
    exact F64.zero_add_ofNat hle
  rw [zero_add_parseGresGpuCount_legacyGres fun t ht => (h t ht).1]
  simpa using F64.foldl_add_exact hf 0 (by omega)

/-- The number of GPUs named by GRES strings, each given by its tokens. -/
def gresGpus (tss : List (List GresToken)) : ℕ := (tss.flatten.map GresToken.gpus).sum

theorem gresGpus_eq (tss : List (List GresToken)) :
    gresGpus tss = (tss.map fun ts => (ts.map GresToken.gpus).sum).sum := by
  rw [gresGpus, List.map_flatten, List.sum_flatten, List.map_map]; rfl

theorem forall₂_zero_add_whole {tss : List (List GresToken)}
    (h : ∀ t ∈ tss.flatten, t.Valid ∧ t.Whole) (hn : gresGpus tss < 2 ^ 53) :
    List.Forall₂ (fun g n => 0 + parseGresGpuCount g = F64.ofNat n) (tss.map legacyGres)
      (tss.map fun ts => (ts.map GresToken.gpus).sum) := by
  rw [List.forall₂_map_left_iff, List.forall₂_map_right_iff]
  refine List.forall₂_same.mpr fun ts hts => zero_add_parseGresGpuCount_whole
    (fun t ht => h t (List.mem_flatten.mpr ⟨ts, hts, ht⟩)) ?_
  rw [gresGpus_eq] at hn
  exact (List.le_sum_of_mem
    (List.mem_map_of_mem (fun ts => (ts.map GresToken.gpus).sum) hts)).trans_lt hn

end Whole

/-! ## Signs of the counts

The strings `parseGresGpuCount` passes to `ParseFloat`: the value after `=` of each TRES part
with the prefix `gres/gpu`, and the last `:`-field of each legacy token that gets that far.
Annotations such as `(IDX:0-7)` are cut off before, so their numerals are not among them. -/

section Nonneg

/-- The value the TRES branch passes to `ParseFloat` for one trimmed part, if any. -/
def tresValue (part : List Char) : Option (List Char) :=
  if "gres/gpu".toList <+: part then
    match index part '=' with
    | some eqIdx => if eqIdx < part.length - 1 then some (part.drop (eqIdx + 1)) else none
    | none => none
  else none

/-- The count field the single-token branch passes to `ParseFloat`, if any. -/
def tokenNumeral (gres : List Char) : Option (List Char) :=
  let gres := match index gres '(' with
    | some idx => gres.take idx
    | none => gres
  if !decide ("gpu".toList <:+: toLower gres) then none
  else if (gres.splitOn ':').length < 2 then none
  else some (lastField gres)

def countNumeralsWith (recur : List Char → List (List Char)) (gres : List Char) :
    List (List Char) :=
  if IsGresSentinel gres then []
  else if '=' ∈ gres then (gres.splitOn ',').filterMap (tresValue ∘ trimSpace)
  else if ',' ∈ gres then (gres.splitOn ',').flatMap (recur ∘ trimSpace)
  else (tokenNumeral gres).toList

/-- Every string `parseGresGpuCount gres` may pass to `ParseFloat`. -/
def countNumerals : List Char → List (List Char) :=
  countNumeralsWith (countNumeralsWith fun _ => [])

example : countNumerals "gpu:a100:8(IDX:0-7),gpu:nano:2".toList = ["8".toList, "2".toList] := by
  decide

/-- A numeral that `ParseFloat` reads as neither negative nor NaN, or rejects. -/
def NonnegNumeral (t : List Char) : Prop := ∀ v, parseFloat t = .ok v → 0 ≤ v

instance : DecidablePred NonnegNumeral := fun t =>
  match h : parseFloat t with
  | .ok v => decidable_of_iff (0 ≤ v)
      ⟨fun hv w hw => by rw [h] at hw; cases hw; exact hv, fun hw => hw v h⟩
  | .error _ => isTrue fun w hw => by rw [h] at hw; cases hw

def NonnegNumerals (gres : List Char) : Prop := ∀ t ∈ countNumerals gres, NonnegNumeral t

instance : DecidablePred NonnegNumerals := fun gres =>
  inferInstanceAs (Decidable (∀ t ∈ countNumerals gres, NonnegNumeral t))

theorem tresGpuCount_cons_eq (part : List Char) (parts : List (List Char)) :
    tresGpuCount (part :: parts) =
      match tresValue (trimSpace part) with
      | some t =>
        match parseFloat t with
        | .ok count => count
        | .error _ => tresGpuCount parts
      | none => tresGpuCount parts := by
  simp only [tresGpuCount, tresValue]
  split_ifs
  · split
    · split_ifs <;> rfl
    · rfl
  · rfl

theorem gresTokenCount_eq (gres : List Char) :
    gresTokenCount gres =
      match tokenNumeral gres with
      | some t =>
        match parseFloat t with
        | .ok count => count
        | .error _ => 0
      | none => 0 := by
  simp only [gresTokenCount, tokenNumeral]
  split_ifs <;> rfl

theorem tresGpuCount_nonneg : ∀ parts : List (List Char),
    (∀ t ∈ parts.filterMap (tresValue ∘ trimSpace), NonnegNumeral t) → 0 ≤ tresGpuCount parts
  | [], _ => F64.zero_le_zero
  | part :: parts, h => by
    have ih := tresGpuCount_nonneg parts fun t ht =>
      h t (((List.sublist_cons_self part parts).filterMap _).subset ht)
    rw [tresGpuCount_cons_eq]
    cases hv : tresValue (trimSpace part) with
    | none => exact ih
    | some t =>
      dsimp only
      cases hp : parseFloat t with
      | ok c => exact h t (List.mem_filterMap.mpr ⟨part, List.mem_cons_self _ _, hv⟩) c hp
      | error _ => exact ih

theorem gresTokenCount_nonneg {gres : List Char}
    (h : ∀ t ∈ (tokenNumeral gres).toList, NonnegNumeral t) : 0 ≤ gresTokenCount gres := by
  rw [gresTokenCount_eq]
  cases hv : tokenNumeral gres with
  | none => exact F64.zero_le_zero
  | some t =>
    dsimp only
    cases hp : parseFloat t with
    | ok c => exact h t (by simp [hv]) c hp
    | error _ => exact F64.zero_le_zero

theorem parseGresGpuCountWith_nonneg {r : List Char → F64} {rn : List Char → List (List Char)}
    {gres : List Char} (h : ∀ t ∈ countNumeralsWith rn gres, NonnegNumeral t)
    (hr : ',' ∈ gres → ∀ part ∈ gres.splitOn ',',
      (∀ t ∈ rn (trimSpace part), NonnegNumeral t) → 0 ≤ r (trimSpace part)) :
    0 ≤ parseGresGpuCountWith r gres := by
  by_cases hs : IsGresSentinel gres
  · rw [parseGresGpuCountWith_sentinel hs]; exact F64.zero_le_zero
  by_cases he : '=' ∈ gres
  · rw [parseGresGpuCountWith_tres hs he]
    exact tresGpuCount_nonneg _ (by simpa [countNumeralsWith, hs, he] using h)
  by_cases hc : ',' ∈ gres
  · rw [parseGresGpuCountWith_list hs he hc]
    have hparts : ∀ part ∈ gres.splitOn ',', 0 ≤ r (trimSpace part) := fun part hp =>
      hr hc part hp fun t ht => h t (by
        simpa only [countNumeralsWith, hs, he, hc, if_false, if_true] using
          List.mem_flatMap_of_mem hp ht)
    suffices ∀ (l : List (List Char)) (a : F64), 0 ≤ a → (∀ p ∈ l, 0 ≤ r (trimSpace p)) →
        0 ≤ l.foldl (fun total part => total + r (trimSpace part)) a from
      this _ _ F64.zero_le_zero hparts
    intro l
    induction l with
    | nil => exact fun a ha _ => ha
    | cons p l ih =>
      exact fun a ha hl => ih _ (F64.zero_le_add ha (hl p (by simp)))
        fun q hq => hl q (List.mem_cons_of_mem _ hq)
  · rw [parseGresGpuCountWith_token hs he hc]
    exact gresTokenCount_nonneg (by simpa [countNumeralsWith, hs, he, hc] using h)

end Nonneg

end SlurmExporter
