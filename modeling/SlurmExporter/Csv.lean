import SlurmExporter.GoString

/-!
# `encoding/csv`, as `fetchTotalGpus` configures it

`fetchTotalGpus` reads `sinfo`'s output with `csv.NewReader`, `Comma = '|'` and
`LazyQuotes = true`; the other options keep their defaults: no comment character, no trimming of
leading space, and `FieldsPerRecord = 0`, which gives every record the number of fields of the
first. `ReadAll` is modelled as an automaton over the characters:

1. `readLine` reads each `\r\n` as `\n` and drops a `\r` that ends the input (`normalize`);
2. between records, empty lines are skipped;
3. a field is bare (up to the separator or the end of the line) or quoted; with lazy quotes a
   quote that does not close its field is kept, and a quoted field may span lines;
4. at the end of each record its number of fields is checked against the first record's, and
   `ReadAll` fails with `ErrFieldCount` on the first record that differs.

With `LazyQuotes` the bare-quote and quote errors cannot occur, so on a `bytes.Reader`
`ErrFieldCount` is the only error `ReadAll` returns.

`readAll_plain` reads input without quotes line by line; `readAll_writeAll` shows that the
quoted states invert quoting: records of quoted fields are read back exactly when they all have
the first record's number of fields, and the field-count check fails otherwise.
-/

namespace SlurmExporter.Csv

set_option maxRecDepth 20000

/-- `readLine`'s normalisation of the input: a `\r` is dropped before `\n` (each `\r\n` read as
`\n`) and at the end of the input. -/
def normalize : List Char → List Char
  | [] => []
  | c :: s =>
    if c = '\r' then
      match s with
      | [] => []
      | d :: _ => if d = '\n' then normalize s else c :: normalize s
    else c :: normalize s

/-- Where the reader is: between records, in a field, or in or after a quote of a quoted field. -/
inductive Mode
  | record
  | field
  | bare
  | quoted
  | quote
  deriving DecidableEq, Repr

/-- A `*csv.ParseError`; with lazy quotes it is always `ErrFieldCount` at the record's line. -/
structure ParseError where
  line : ℕ
  deriving DecidableEq, Repr

/-- The reader between two characters: the record being read, the records read, the lines. -/
structure Reader where
  mode : Mode := .record
  field : List Char := []
  fields : List (List Char) := []
  records : List (List (List Char)) := []
  numLine : ℕ := 0
  recLine : ℕ := 0
  fieldsPerRecord : ℕ := 0
  deriving DecidableEq, Repr

namespace Reader

def endField (r : Reader) : Reader := { r with field := [], fields := r.fields ++ [r.field] }

/-- Ends the current record with `readRecord`'s field-count check. -/
def endRecord (r : Reader) : Except ParseError Reader :=
  let r := r.endField
  if r.fieldsPerRecord = 0 ∨ r.fields.length = r.fieldsPerRecord then
    .ok { r with mode := .record, fields := [], records := r.records ++ [r.fields],
                 fieldsPerRecord := r.fields.length }
  else .error ⟨r.recLine⟩

/-- A character in a bare field: the separator ends the field, a newline the record. -/
def bare (comma : Char) (r : Reader) (c : Char) : Except ParseError Reader :=
  if c = comma then .ok { r.endField with mode := .field }
  else if c = '\n' then endRecord { r with numLine := r.numLine + 1 }
  else .ok { r with mode := .bare, field := r.field ++ [c] }

def step (comma : Char) (r : Reader) (c : Char) : Except ParseError Reader :=
  match r.mode with
  | .record =>
    if c = '\n' then .ok { r with numLine := r.numLine + 1 }
    else if c = '"' then .ok { r with mode := .quoted, recLine := r.numLine + 1 }
    else bare comma { r with mode := .field, recLine := r.numLine + 1 } c
  | .field => if c = '"' then .ok { r with mode := .quoted } else bare comma r c
  | .bare => bare comma r c
  | .quoted =>
    if c = '"' then .ok { r with mode := .quote }
    else .ok { r with field := r.field ++ [c],
                      numLine := if c = '\n' then r.numLine + 1 else r.numLine }
  | .quote =>
    if c = '"' then .ok { r with mode := .quoted, field := r.field ++ ['"'] }
    else if c = comma then .ok { r.endField with mode := .field }
    else if c = '\n' then endRecord { r with numLine := r.numLine + 1 }
    else .ok { r with mode := .quoted, field := r.field ++ ['"', c] }

def finish (r : Reader) : Except ParseError (List (List (List Char))) :=
  match r.mode with
  | .record => .ok r.records
  | _ => (endRecord r).map (·.records)

end Reader

/-- `validDelim`: a `Char` is always a valid rune, so `utf8.ValidRune` holds. -/
def validDelim (r : Char) : Bool :=
  r != '\x00' && r != '"' && r != '\r' && r != '\n' && r != '\uFFFD'

/-- What `ReadAll` fails with: `errInvalidDelim`, or a `*csv.ParseError`. -/
inductive ReadErr
  | invalidDelim
  | parse (e : ParseError)
  deriving DecidableEq, Repr

/-- `ReadAll` with separator `comma` and lazy quotes: `readRecord` checks the separator first. -/
def readAll (comma : Char) (s : List Char) : Except ReadErr (List (List (List Char))) :=
  if validDelim comma then
    ((normalize s).foldlM (Reader.step comma) {} >>= Reader.finish).mapError .parse
  else .error .invalidDelim

theorem validDelim_ne {comma : Char} (h : validDelim comma = true) :
    comma ≠ '"' ∧ comma ≠ '\r' ∧ comma ≠ '\n' := by
  simp only [validDelim, Bool.and_eq_true, bne_iff_ne, ne_eq] at h
  exact ⟨h.1.1.1.2, h.1.1.2, h.1.2⟩

theorem toOption_mapError {ε ε' α : Type} (f : ε → ε') (e : Except ε α) :
    (e.mapError f).toOption = e.toOption := by
  cases e <;> rfl

example : readAll '\n' [] = .error .invalidDelim := by decide


/-! ## Input without quotes

On an input without quotes or carriage returns, every record is one non-empty line split at the
separator. -/

section Plain

open Go

variable {comma : Char}

theorem normalize_of_not_mem {s : List Char} (h : '\r' ∉ s) : normalize s = s := by
  induction s with
  | nil => rfl
  | cons c s ih =>
    simp only [List.mem_cons, not_or] at h
    simp only [normalize, if_neg (Ne.symm h.1), ih h.2]

theorem step_plain {r : Reader} (hr : r.mode = .field ∨ r.mode = .bare) {c : Char}
    (hq : c ≠ '"') (hn : c ≠ '\n') :
    Reader.step comma r c = if c = comma then .ok { r.endField with mode := .field }
      else .ok { r with mode := .bare, field := r.field ++ [c] } := by
  rcases hr with h | h <;> simp only [Reader.step, h, hq, hn, Reader.bare, if_false]

theorem step_record {r : Reader} (hr : r.mode = .record) {c : Char} (hq : c ≠ '"')
    (hn : c ≠ '\n') :
    Reader.step comma r c =
      Reader.step comma { r with mode := .field, recLine := r.numLine + 1 } c := by
  simp only [Reader.step, hr, hq, hn, if_false]

theorem foldlM_line {l : List Char} (hl : ∀ c ∈ l, c ≠ '"' ∧ c ≠ '\n') :
    ∀ r : Reader, (r.mode = .field ∨ r.mode = .bare) → comma ∉ r.field →
    ∃ m f fs, (m = .field ∨ m = .bare) ∧ fs ++ [f] = r.fields ++ (r.field ++ l).splitOn comma ∧
      l.foldlM (Reader.step comma) r = .ok { r with mode := m, field := f, fields := fs } := by
  induction l with
  | nil =>
    intro r hr hf
    exact ⟨r.mode, r.field, r.fields, hr, by rw [List.append_nil, splitOn_of_not_mem hf], rfl⟩
  | cons c l ih =>
    intro r hr hf
    have ⟨hq, hn⟩ := hl c (List.mem_cons_self _ _)
    have hl' := fun d hd => hl d (List.mem_cons_of_mem _ hd)
    rw [List.foldlM_cons, step_plain hr hq hn]
    split_ifs with hc
    · subst hc
      obtain ⟨m, f, fs, hm, hfs, e⟩ := ih hl' { r.endField with mode := .field } (.inl rfl)
        (List.not_mem_nil _)
      refine ⟨m, f, fs, hm, ?_, e⟩
      rw [hfs, splitOn_append_cons, splitOn_of_not_mem hf]
      simp [Reader.endField]
    · obtain ⟨m, f, fs, hm, hfs, e⟩ := ih hl' { r with mode := .bare, field := r.field ++ [c] }
        (.inr rfl) (by simp [hf, Ne.symm hc])
      exact ⟨m, f, fs, hm, by simpa using hfs, e⟩

theorem endRecord_ok {r : Reader}
    (h : r.fieldsPerRecord = 0 ∨ (r.fields ++ [r.field]).length = r.fieldsPerRecord) :
    r.endRecord =
      .ok { r with mode := .record, field := [], fields := [],
                   records := r.records ++ [r.fields ++ [r.field]],
                   fieldsPerRecord := (r.fields ++ [r.field]).length } := by
  simp only [Reader.endRecord, Reader.endField, if_pos h]

theorem step_newline (hc : comma ≠ '\n') {r : Reader} (hm : r.mode = .field ∨ r.mode = .bare)
    (h : r.fieldsPerRecord = 0 ∨ (r.fields ++ [r.field]).length = r.fieldsPerRecord) :
    Reader.step comma r '\n' =
      .ok { r with mode := .record, field := [], fields := [], numLine := r.numLine + 1,
                   records := r.records ++ [r.fields ++ [r.field]],
                   fieldsPerRecord := (r.fields ++ [r.field]).length } := by
  have hq : ('\n' : Char) ≠ '"' := by decide
  rcases hm with hm | hm <;>
    simp only [Reader.step, hm, Reader.bare, if_neg hq, if_neg (Ne.symm hc), ite_true] <;>
    exact endRecord_ok h

theorem finish_of_field {r : Reader} (hm : r.mode = .field ∨ r.mode = .bare)
    (h : r.fieldsPerRecord = 0 ∨ (r.fields ++ [r.field]).length = r.fieldsPerRecord) :
    r.finish = .ok (r.records ++ [r.fields ++ [r.field]]) := by
  rcases hm with hm | hm <;> simp [Reader.finish, hm, endRecord_ok h, Except.map]

theorem foldlM_record {l : List Char} (hl : ∀ c ∈ l, c ≠ '"' ∧ c ≠ '\n') (hne : l ≠ [])
    {r : Reader} (hr : r.mode = .record) (hf : r.field = []) (hfs : r.fields = []) :
    ∃ m f fs, (m = .field ∨ m = .bare) ∧ fs ++ [f] = l.splitOn comma ∧
      l.foldlM (Reader.step comma) r =
        .ok { r with mode := m, recLine := r.numLine + 1, field := f, fields := fs } := by
  obtain ⟨c, l', rfl⟩ := List.exists_cons_of_ne_nil hne
  have ⟨hq, hn⟩ := hl c (List.mem_cons_self _ _)
  obtain ⟨m, f, fs, hm, hfs', e⟩ :=
    foldlM_line hl { r with mode := .field, recLine := r.numLine + 1 }
    (.inl rfl) (by simp [hf])
  refine ⟨m, f, fs, hm, by simpa [hf, hfs] using hfs', ?_⟩
  rw [List.foldlM_cons, step_record hr hq hn, ← List.foldlM_cons, e]

/-- Lines without quotes, the non-empty ones of `n` fields each, are read as records. -/
theorem foldlM_lines (hc : comma ≠ '\n') {n : ℕ} : ∀ ls : List (List Char), ls ≠ [] →
    (∀ l ∈ ls, ∀ c ∈ l, c ≠ '"' ∧ c ≠ '\n') →
    (∀ l ∈ ls, l ≠ [] → (l.splitOn comma).length = n) →
    ∀ r : Reader, r.mode = .record → r.field = [] → r.fields = [] →
      (r.fieldsPerRecord = 0 ∨ r.fieldsPerRecord = n) →
      (['\n'].intercalate ls).foldlM (Reader.step comma) r >>= Reader.finish =
        .ok (r.records ++ (ls.filter (· ≠ [])).map (·.splitOn comma))
  | [], hne, _, _, _, _, _, _, _ => absurd rfl hne
  | [l], _, hl, hn, r, hr, hf, hfs, hk => by
    rw [show ['\n'].intercalate [l] = l by simp [List.intercalate]]
    by_cases hl0 : l = []
    · subst hl0
      simp [Reader.finish, hr]
    · obtain ⟨m, f, fs, hm, hfs', e⟩ :=
        foldlM_record (hl l (List.mem_singleton_self l)) hl0 hr hf hfs
      have hlen : (fs ++ [f]).length = n := hfs' ▸ hn l (List.mem_singleton_self l) hl0
      rw [e, except_ok_bind, finish_of_field hm (by simp only; omega)]
      simp [hfs', hl0]
  | l :: l' :: ls, _, hl, hn, r, hr, hf, hfs, hk => by
    have hl' := fun u hu => hl u (List.mem_cons_of_mem _ hu)
    have hn' := fun u hu => hn u (List.mem_cons_of_mem _ hu)
    rw [intercalate_cons_cons, List.foldlM_append]
    by_cases hl0 : l = []
    · subst hl0
      simpa [Reader.step, hr] using
        foldlM_lines hc (l' :: ls) (List.cons_ne_nil _ _) hl' hn'
          { r with numLine := r.numLine + 1 }
          hr hf hfs hk
    · obtain ⟨m, f, fs, hm, hfs', e⟩ := foldlM_record (hl l (List.mem_cons_self _ _)) hl0 hr hf hfs
      have hlen : (fs ++ [f]).length = n := hfs' ▸ hn l (List.mem_cons_self _ _) hl0
      rw [e, except_ok_bind, List.foldlM_cons, step_newline hc hm (by simp only; omega),
        except_ok_bind]
      simpa [hl0, hfs'] using foldlM_lines hc (l' :: ls) (List.cons_ne_nil _ _) hl' hn'
        { r with mode := .record, recLine := r.numLine + 1, field := [], fields := [],
                 numLine := r.numLine + 1, records := r.records ++ [fs ++ [f]],
                 fieldsPerRecord := (fs ++ [f]).length } rfl rfl rfl (.inr hlen)

/-- On input without quotes or carriage returns, `ReadAll` splits each non-empty line at the
separator. -/
theorem readAll_plain (hv : validDelim comma = true) {s : List Char} (hq : '"' ∉ s)
    (hr : '\r' ∉ s) {n : ℕ} (hn : ∀ l ∈ s.splitOn '\n', l ≠ [] → (l.splitOn comma).length = n) :
    readAll comma s = .ok (((s.splitOn '\n').filter (· ≠ [])).map (·.splitOn comma)) := by
  have h := foldlM_lines (validDelim_ne hv).2.2 (s.splitOn '\n') (List.splitOnP_ne_nil _ _)
    (fun l hl c hcl => ⟨fun e => hq (e ▸ (infix_of_mem_splitOn hl).subset hcl),
      fun e => not_mem_of_mem_splitOn hl (e ▸ hcl)⟩) hn {} rfl rfl rfl (.inl rfl)
  rw [List.intercalate_splitOn] at h
  simp [readAll, hv, normalize_of_not_mem hr, h, Except.mapError]

end Plain

/-! ## Quoted fields

A writer that quotes every field and doubles the quotes in it produces input that `ReadAll`
reads back field for field, separators and newlines inside fields included, provided no field
holds a carriage return (which `readLine` drops before a newline): the reader's quoted states
invert the quoting. The field-count check then decides: `ReadAll` returns the records exactly
when they all have as many fields as the first (`readAll_writeAll`). -/

section Quoted

variable {comma : Char}

/-- A field with each quote doubled. -/
def escapeQuotes : List Char → List Char
  | [] => []
  | c :: f => (if c = '"' then ['"', '"'] else [c]) ++ escapeQuotes f

def quoteField (f : List Char) : List Char := '"' :: (escapeQuotes f ++ ['"'])

/-- A record of quoted fields: the first, then each other after the separator, then a
newline. -/
def writeRecord (comma : Char) : List (List Char) → List Char
  | [] => ['\n']
  | f :: fs => quoteField f ++ (fs.flatMap fun g => comma :: quoteField g) ++ ['\n']

def writeAll (comma : Char) (rows : List (List (List Char))) : List Char :=
  rows.flatMap (writeRecord comma)

theorem foldlM_escapeQuotes : ∀ (f : List Char) (r : Reader), r.mode = .quoted →
    ∃ n, (escapeQuotes f).foldlM (Reader.step comma) r =
      .ok { r with field := r.field ++ f, numLine := n }
  | [], r, _ => ⟨r.numLine, by simp only [escapeQuotes, List.append_nil]; rfl⟩
  | c :: f, ⟨mode, field, fields, records, numLine, recLine, fpr⟩, hr => by
    cases hr
    by_cases hc : c = '"'
    · subst hc
      obtain ⟨n, hn⟩ := foldlM_escapeQuotes f
        ⟨.quoted, field ++ ['"'], fields, records, numLine, recLine, fpr⟩ rfl
      refine ⟨n, ?_⟩
      simp only [escapeQuotes, if_true, List.cons_append, List.singleton_append,
        List.foldlM_cons, Reader.step, except_ok_bind]
      simpa using hn
    · obtain ⟨n, hn⟩ := foldlM_escapeQuotes f
        ⟨.quoted, field ++ [c], fields, records, if c = '\n' then numLine + 1 else numLine,
          recLine, fpr⟩ rfl
      refine ⟨n, ?_⟩
      simp only [escapeQuotes, if_neg hc, List.singleton_append, List.foldlM_cons, Reader.step,
        except_ok_bind]
      simpa using hn

theorem foldlM_quoted (f : List Char) {r : Reader} (hr : r.mode = .quoted) :
    ∃ n, (escapeQuotes f ++ ['"']).foldlM (Reader.step comma) r =
      .ok { r with mode := .quote, field := r.field ++ f, numLine := n } := by
  obtain ⟨n, hn⟩ := @foldlM_escapeQuotes comma f r hr
  exact ⟨n, by simp [List.foldlM_append, hn, Reader.step, hr]⟩

theorem foldlM_fields (hq : comma ≠ '"') : ∀ (gs : List (List Char)) (r : Reader),
    r.mode = .quote → ∃ r', (gs.flatMap fun g => comma :: quoteField g).foldlM
        (Reader.step comma) r = .ok r' ∧ r'.mode = .quote ∧
      r'.fields ++ [r'.field] = r.fields ++ r.field :: gs ∧ r'.records = r.records ∧
      r'.fieldsPerRecord = r.fieldsPerRecord ∧ r'.recLine = r.recLine
  | [], r, hr => ⟨r, rfl, hr, rfl, rfl, rfl, rfl⟩
  | g :: gs, r, hr => by
    let r₁ : Reader := { r.endField with mode := .quoted }
    have h₁ : [comma, '"'].foldlM (Reader.step comma) r = .ok r₁ := by
      simp [r₁, Reader.step, hr, hq]
    obtain ⟨n, h₂⟩ := @foldlM_quoted comma g r₁ rfl
    obtain ⟨r', h₃, hm, hfs, hrec, hfpr, hline⟩ :=
      foldlM_fields hq gs { r₁ with mode := .quote, field := r₁.field ++ g, numLine := n } rfl
    refine ⟨r', ?_, hm, ?_, hrec, hfpr, hline⟩
    · rw [List.flatMap_cons, quoteField, List.foldlM_append,
        show comma :: '"' :: (escapeQuotes g ++ ['"']) =
          [comma, '"'] ++ (escapeQuotes g ++ ['"']) from rfl,
        List.foldlM_append, h₁, except_ok_bind, h₂, except_ok_bind, h₃]
    · rw [hfs]; simp [r₁, Reader.endField]

theorem foldlM_writeRecord (hq : comma ≠ '"') (hn : comma ≠ '\n') (f : List Char)
    (gs : List (List Char)) {r : Reader} (hr : r.mode = .record) (hf : r.field = [])
    (hfs : r.fields = []) :
    ∃ r' : Reader, (writeRecord comma (f :: gs)).foldlM (Reader.step comma) r = r'.endRecord ∧
      r'.fields ++ [r'.field] = f :: gs ∧ r'.records = r.records ∧
      r'.fieldsPerRecord = r.fieldsPerRecord := by
  let r₁ : Reader := { r with mode := .quoted, recLine := r.numLine + 1 }
  have h₁ : ['"'].foldlM (Reader.step comma) r = .ok r₁ := by simp [r₁, Reader.step, hr]
  obtain ⟨n, h₂⟩ := @foldlM_quoted comma f r₁ rfl
  obtain ⟨r', h₃, hm, hfs', hrec, hfpr, -⟩ :=
    foldlM_fields hq gs { r₁ with mode := .quote, field := r₁.field ++ f, numLine := n } rfl
  refine ⟨{ r' with numLine := r'.numLine + 1 }, ?_, ?_, hrec, hfpr⟩
  · rw [writeRecord, quoteField, List.foldlM_append, List.foldlM_append,
      show '"' :: (escapeQuotes f ++ ['"']) = ['"'] ++ (escapeQuotes f ++ ['"']) from rfl,
      List.foldlM_append, h₁, except_ok_bind, h₂, except_ok_bind, h₃, except_ok_bind]
    simp [Reader.step, hm, Ne.symm hn]
  · rw [hfs']; simp [r₁, hf, hfs]

/-- Records of quoted fields are read as themselves while each has the expected field count. -/
theorem foldlM_writeAll (hq : comma ≠ '"') (hn : comma ≠ '\n') :
    ∀ (rows : List (List (List Char))) (r : Reader), (∀ row ∈ rows, row ≠ []) →
      r.mode = .record → r.field = [] → r.fields = [] →
      ((writeAll comma rows).foldlM (Reader.step comma) r >>= Reader.finish).toOption =
        if ∀ row ∈ rows, row.length =
          if r.fieldsPerRecord = 0 then (rows.headD []).length else r.fieldsPerRecord
        then some (r.records ++ rows) else none
  | [], r, _, hr, _, _ => by simp [writeAll, Reader.finish, hr, Except.toOption]
  | row :: rows, r, hne, hr, hf, hfs => by
    obtain ⟨f, gs, rfl⟩ := List.exists_cons_of_ne_nil (hne row (List.mem_cons_self _ _))
    obtain ⟨r', h₁, hrow, hrec, hfpr⟩ := foldlM_writeRecord hq hn f gs hr hf hfs
    rw [writeAll, List.flatMap_cons, List.foldlM_append, h₁, ← writeAll]
    by_cases hc : r.fieldsPerRecord = 0 ∨ (f :: gs).length = r.fieldsPerRecord
    · rw [endRecord_ok (by rw [hrow, hfpr]; exact hc), except_ok_bind,
        foldlM_writeAll hq hn rows _ (fun x hx => hne x (List.mem_cons_of_mem _ hx)) rfl rfl rfl]
      simp only [hrow, hrec, List.append_assoc, List.singleton_append, List.length_cons,
        Nat.succ_ne_zero, if_false, List.mem_cons, forall_eq_or_imp, List.headD_cons]
      rcases hc with hc | hc
      · simp [hc]
      · simp [← hc, Nat.succ_ne_zero]
    · have herr : r'.endRecord = .error ⟨r'.endField.recLine⟩ := by
        rw [Reader.endRecord, if_neg (by simpa [Reader.endField, hrow, hfpr] using hc)]
      rw [herr, except_error_bind, except_error_bind, if_neg]
      · rfl
      · intro hall
        have := hall _ (List.mem_cons_self _ _)
        split_ifs at this with h0
        · exact hc (.inl h0)
        · exact hc (.inr this)

theorem not_mem_escapeQuotes {c : Char} (hc : c ≠ '"') :
    ∀ {f : List Char}, c ∉ f → c ∉ escapeQuotes f
  | [], _ => List.not_mem_nil _
  | d :: f, hf => by
    rw [List.mem_cons, not_or] at hf
    rw [escapeQuotes, List.mem_append, not_or]
    refine ⟨?_, not_mem_escapeQuotes hc hf.2⟩
    split_ifs <;> simp [hc, hf.1]

theorem not_mem_writeAll {c : Char} (hq : c ≠ '"') (hn : c ≠ '\n') (hc : c ≠ comma)
    {rows : List (List (List Char))} (h : ∀ row ∈ rows, ∀ f ∈ row, c ∉ f) :
    c ∉ writeAll comma rows := by
  have hfield : ∀ f, c ∉ f → c ∉ quoteField f := fun f hf => by
    simp [quoteField, hq, not_mem_escapeQuotes hq hf]
  simp only [writeAll, List.mem_flatMap, not_exists, not_and]
  intro row hrow
  cases row with
  | nil => simp [writeRecord, hn]
  | cons f fs =>
    have hrow' := h _ hrow
    simp only [writeRecord, List.mem_append, List.mem_flatMap, List.mem_cons, List.mem_singleton,
      not_or, not_exists, not_and]
    exact ⟨⟨hfield f (hrow' f (List.mem_cons_self _ _)),
      fun g hg => ⟨hc, hfield g (hrow' g (List.mem_cons_of_mem _ hg))⟩⟩, hn, List.not_mem_nil _⟩

/-- With a valid separator, `ReadAll` reads non-empty records of quoted fields without carriage
returns back exactly when every record has as many fields as the first. -/
theorem readAll_writeAll (hv : validDelim comma = true) {rows : List (List (List Char))}
    (hne : ∀ row ∈ rows, row ≠ []) (hcr : ∀ row ∈ rows, ∀ f ∈ row, '\r' ∉ f) :
    (readAll comma (writeAll comma rows)).toOption =
      if ∀ row ∈ rows, row.length = (rows.headD []).length then some rows else none := by
  obtain ⟨hq, hr, hn⟩ := validDelim_ne hv
  rw [readAll, if_pos hv, toOption_mapError,
    normalize_of_not_mem (not_mem_writeAll (by decide) (by decide) (Ne.symm hr) hcr),
    foldlM_writeAll hq hn rows {} hne rfl rfl rfl]
  simp

/-- Records with a separator, a quote and a newline inside fields are read back; a record of
another width makes `ReadAll` fail. -/
theorem readAll_writeAll_pipe :
    (readAll '|' (writeAll '|' [["gpu:2".toList, "a|b".toList],
      ["say \"hi\"".toList, "two\nlines".toList]])).toOption =
      some [["gpu:2".toList, "a|b".toList], ["say \"hi\"".toList, "two\nlines".toList]] ∧
    (readAll '|' (writeAll '|' [["gpu:2".toList, "a|b".toList], ["x".toList]])).toOption =
      none := by
  have h₁ := @readAll_writeAll '|' (by decide)
    [["gpu:2".toList, "a|b".toList], ["say \"hi\"".toList, "two\nlines".toList]]
    (by decide) (by decide)
  have h₂ := @readAll_writeAll '|' (by decide)
    [["gpu:2".toList, "a|b".toList], ["x".toList]] (by decide) (by decide)
  exact ⟨h₁.trans (if_pos (by decide)), h₂.trans (if_neg (by decide))⟩

end Quoted

example : readAll '|' "gpu:2 |\r\nx|y\n".toList =
    .ok [["gpu:2 ".toList, []], ["x".toList, "y".toList]] := by
  decide

end SlurmExporter.Csv
