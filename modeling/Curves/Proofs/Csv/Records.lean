import Curves.Csv.Record

/-!
# Records are read back

The scanner finds the fields that were written if the bytes that structure records are distinct. A
field that needs no quotes is read byte by byte; in a quoted one the two quotes that stand for one
are read as one. A record ends with its line end, of which the second byte is passed over before the
next record.

Main statements:

* `Scan.Shows.encodeField`: a written field is read as it was;
* `Dialect.map_fields_records`: the records of a text are those that were written.
-/

namespace Curves.Csv

/-- The delimiter and the quote differ from each other and from the bytes that end lines. -/
structure Dialect.Distinct (d : Dialect) : Prop where
  quote_ne : d.quote ≠ d.delimiter
  delimiter : endsLine d.delimiter = false
  quote : endsLine d.quote = false

namespace Scan

/-- What has been read, in the order of the text and without places. -/
structure Shows (s : Scan) (mode : Mode) (field : List UInt8) (fields : List (List UInt8))
    (records : List (List (List UInt8))) : Prop where
  mode : s.mode = mode
  field : s.field.reverse = field
  fields : s.fields.reverse = fields
  records : (s.records.map Record.fields).reverse = records

section Steps
variable {d : Dialect} {s : Scan} {m : Mode} {b : UInt8} {field : List UInt8}
  {fields : List (List UInt8)} {records : List (List (List UInt8))}

theorem Shows.push (h : s.Shows m field fields records) (b : UInt8) (m' : Mode) :
    (s.push b m').Shows m' (field ++ [b]) fields records :=
  ⟨rfl, by rw [Scan.push, List.reverse_cons, h.field], h.fields, h.records⟩

theorem Shows.endField (h : s.Shows m field fields records) :
    s.endField.Shows .fieldStart [] (fields ++ [field]) records :=
  ⟨rfl, rfl, by rw [Scan.endField, List.reverse_cons, h.fields, h.field], h.records⟩

theorem Shows.endRecord (h : s.Shows m field fields records) :
    s.endRecord.Shows .recordStart [] [] (records ++ [fields ++ [field]]) := by
  refine ⟨rfl, rfl, rfl, ?_⟩
  simp only [Scan.endRecord, List.map_cons, List.reverse_cons, h.records, h.fields, h.field]

def act (d : Dialect) (s : Scan) (b : UInt8) : Mode → Scan
  | .recordStart => if endsLine b then s else s.first d b
  | .fieldStart => s.first d b
  | .plain => s.unquoted d b
  | .quoted => if b = d.quote then { s with mode := .quoteSeen } else s.push b .quoted
  | .quoteSeen => if b = d.quote then s.push b .quoted else s.unquoted d b

/-- A step counts its byte and acts on it. -/
theorem Shows.step_eq (h : s.Shows m field fields records) (d : Dialect) (b : UInt8) :
    ∃ s' : Scan, s'.Shows m field fields records ∧ s.step d b = s'.act d b m := by
  refine ⟨{ s with byte := s.byte + 1, line := if b = 10 then s.line + 1 else s.line },
    ⟨h.mode, h.field, h.fields, h.records⟩, ?_⟩
  obtain ⟨mode, _, _, _, _, _, _, _, _⟩ := s
  obtain rfl : mode = m := h.mode
  cases mode <;> rfl

/-- A byte that is not special belongs to the field. -/
theorem Shows.step_plain (h : s.Shows m field fields records)
    (hm : m = .recordStart ∨ m = .fieldStart ∨ m = .plain) (plain : d.isSpecial b = false) :
    (s.step d b).Shows .plain (field ++ [b]) fields records := by
  simp only [Dialect.isSpecial, Bool.or_eq_false_iff, beq_eq_false_iff_ne] at plain
  obtain ⟨⟨delimiter, quote⟩, line⟩ := plain
  obtain ⟨s', h', eq⟩ := h.step_eq d b
  have pushed : s'.act d b m = s'.push b .plain := by
    rcases hm with rfl | rfl | rfl <;> simp [act, first, unquoted, line, quote, delimiter]
  rw [eq, pushed]
  exact h'.push b .plain

theorem Shows.step_delimiter (distinct : d.Distinct) (h : s.Shows m field fields records)
    (hm : m ≠ .quoted) :
    (s.step d d.delimiter).Shows .fieldStart [] (fields ++ [field]) records := by
  obtain ⟨s', h', eq⟩ := h.step_eq d d.delimiter
  have ended : s'.act d d.delimiter m = s'.endField := by
    cases m with
    | quoted => exact absurd rfl hm
    | _ => simp [act, first, unquoted, distinct.delimiter, distinct.quote_ne.symm]
  rw [eq, ended]
  exact h'.endField

/-- The end of a line ends the field and the record unless it is quoted. -/
theorem Shows.step_lineEnd (distinct : d.Distinct) (h : s.Shows m field fields records)
    (hm : m ≠ .quoted) (inside : m ≠ .recordStart) (line : endsLine b) :
    (s.step d b).Shows .recordStart [] [] (records ++ [fields ++ [field]]) := by
  have quote : b ≠ d.quote := by
    rintro rfl
    rw [distinct.quote] at line
    cases line
  have delimiter : b ≠ d.delimiter := by
    rintro rfl
    rw [distinct.delimiter] at line
    cases line
  obtain ⟨s', h', eq⟩ := h.step_eq d b
  have ended : s'.act d b m = s'.endRecord := by
    cases m with
    | quoted => exact absurd rfl hm
    | recordStart => exact absurd rfl inside
    | _ => simp [act, first, unquoted, line, quote, delimiter]
  rw [eq, ended]
  exact h'.endRecord

/-- Line ends in front of a record are passed over. -/
theorem Shows.step_between (h : s.Shows .recordStart field fields records) (line : endsLine b) :
    (s.step d b).Shows .recordStart field fields records := by
  obtain ⟨s', h', eq⟩ := h.step_eq d b
  rwa [eq, act, if_pos line]

theorem Shows.step_open (distinct : d.Distinct) (h : s.Shows m field fields records)
    (hm : m = .recordStart ∨ m = .fieldStart) :
    (s.step d d.quote).Shows .quoted field fields records := by
  obtain ⟨s', h', eq⟩ := h.step_eq d d.quote
  have opened : s'.act d d.quote m = { s' with mode := .quoted } := by
    rcases hm with rfl | rfl <;> simp [act, first, distinct.quote]
  rw [eq, opened]
  exact ⟨rfl, h'.field, h'.fields, h'.records⟩

theorem Shows.step_quoted (h : s.Shows .quoted field fields records) (hb : b ≠ d.quote) :
    (s.step d b).Shows .quoted (field ++ [b]) fields records := by
  obtain ⟨s', h', eq⟩ := h.step_eq d b
  rw [eq, act, if_neg hb]
  exact h'.push b .quoted

theorem Shows.step_quote (h : s.Shows .quoted field fields records) :
    (s.step d d.quote).Shows .quoteSeen field fields records := by
  obtain ⟨s', h', eq⟩ := h.step_eq d d.quote
  rw [eq, act, if_pos rfl]
  exact ⟨rfl, h'.field, h'.fields, h'.records⟩

theorem Shows.step_second_quote (h : s.Shows .quoteSeen field fields records) :
    (s.step d d.quote).Shows .quoted (field ++ [d.quote]) fields records := by
  obtain ⟨s', h', eq⟩ := h.step_eq d d.quote
  rw [eq, act, if_pos rfl]
  exact h'.push d.quote .quoted

end Steps

/-! ## Fields -/

section Fields
variable {d : Dialect} {s : Scan} {m : Mode} {fields : List (List UInt8)}
  {records : List (List (List UInt8))}

theorem Shows.foldl_plain {field : List UInt8} (h : s.Shows .plain field fields records)
    (bytes : List UInt8) (plain : bytes.any d.isSpecial = false) :
    (bytes.foldl (step d) s).Shows .plain (field ++ bytes) fields records := by
  induction bytes generalizing s field with
  | nil => rwa [List.append_nil]
  | cons b bytes ih =>
    rw [List.any_cons, Bool.or_eq_false_iff] at plain
    have := ih (h.step_plain (.inr (.inr rfl)) plain.1) plain.2
    rwa [List.append_assoc] at this

/-- Doubled quotes are read as one. -/
theorem Shows.foldl_quoted {field : List UInt8} (h : s.Shows .quoted field fields records)
    (bytes : List UInt8) :
    ((bytes.flatMap fun b => if b = d.quote then [b, b] else [b]).foldl (step d) s).Shows .quoted
      (field ++ bytes) fields records := by
  induction bytes generalizing s field with
  | nil => rwa [List.append_nil]
  | cons b bytes ih =>
    rw [List.flatMap_cons, List.foldl_append]
    have next : ((if b = d.quote then [b, b] else [b]).foldl (step d) s).Shows .quoted
        (field ++ [b]) fields records := by
      split
      · subst b
        exact h.step_quote.step_second_quote
      · exact h.step_quoted ‹_›
    have := ih next
    rwa [List.append_assoc] at this

/-- A written field is read as it was. Behind it the record can end unless nothing was written. -/
theorem Shows.encodeField (distinct : d.Distinct) (h : s.Shows m [] fields records)
    (hm : m = .recordStart ∨ m = .fieldStart) (field : List UInt8) :
    ∃ m', ((d.encodeField field).foldl (step d) s).Shows m' field fields records ∧ m' ≠ .quoted ∧
      (m' = .recordStart → m = .recordStart ∧ d.encodeField field = []) := by
  unfold Dialect.encodeField
  split
  · refine ⟨.quoteSeen, ?_, nofun, nofun⟩
    rw [Dialect.quoteField, List.foldl_cons, List.foldl_append]
    exact ((h.step_open distinct hm).foldl_quoted field).step_quote
  · rename_i plain
    rw [Bool.not_eq_true] at plain
    cases field with
    -- Nothing is written for an empty field, so the scanner is where it was.
    | nil => exact ⟨m, h, by rcases hm with rfl | rfl <;> nofun, fun start => ⟨start, rfl⟩⟩
    | cons b bytes =>
      rw [List.any_cons, Bool.or_eq_false_iff] at plain
      have first := h.step_plain (hm.elim .inl fun start => .inr (.inl start)) plain.1
      exact ⟨.plain, first.foldl_plain bytes plain.2, nofun, nofun⟩

theorem intercalate_encodeField_cons (first second : List UInt8) (rest : List (List UInt8)) :
    [d.delimiter].intercalate ((first :: second :: rest).map d.encodeField) =
      d.encodeField first ++ d.delimiter ::
        [d.delimiter].intercalate ((second :: rest).map d.encodeField) := by
  simp [List.intercalate]

theorem intercalate_encodeField_singleton (field : List UInt8) :
    [d.delimiter].intercalate ([field].map d.encodeField) = d.encodeField field := by
  simp [List.intercalate]

/-- Fields are read up to the last one, at whose end the record can end unless the line is empty. -/
theorem Shows.joined (distinct : d.Distinct) (h : s.Shows m [] fields records)
    (hm : m = .recordStart ∨ m = .fieldStart) (first : List UInt8) (rest : List (List UInt8)) :
    ∃ m' before last, first :: rest = before ++ [last] ∧
      (([d.delimiter].intercalate ((first :: rest).map d.encodeField)).foldl (step d) s).Shows m'
        last (fields ++ before) records ∧ m' ≠ .quoted ∧
      (m' = .recordStart → m = .recordStart ∧
        [d.delimiter].intercalate ((first :: rest).map d.encodeField) = []) := by
  induction rest generalizing s m fields first with
  | nil =>
    obtain ⟨m', shows, unquoted, start⟩ := h.encodeField distinct hm first
    rw [intercalate_encodeField_singleton]
    exact ⟨m', [], first, rfl, by rwa [List.append_nil], unquoted, start⟩
  | cons second rest ih =>
    obtain ⟨m', shows, unquoted, -⟩ := h.encodeField distinct hm first
    obtain ⟨m'', before, last, cut, shows', unquoted', start⟩ :=
      ih (shows.step_delimiter distinct unquoted) (.inr rfl) second
    rw [intercalate_encodeField_cons, List.foldl_append, List.foldl_cons]
    refine ⟨m'', first :: before, last, by rw [cut, List.cons_append], ?_, unquoted', ?_⟩
    · rwa [List.append_assoc] at shows'
    · intro start'
      cases (start start').1

theorem fields_of_line_eq_nil {first : List UInt8} {rest : List (List UInt8)}
    (h : [d.delimiter].intercalate ((first :: rest).map d.encodeField) = []) :
    first :: rest = [[]] := by
  cases rest with
  | nil =>
    rw [intercalate_encodeField_singleton, Dialect.encodeField] at h
    split at h
    · cases h
    · rw [h]
  | cons second rest =>
    rw [intercalate_encodeField_cons] at h
    exact absurd (List.append_eq_nil_iff.1 h).2 (List.cons_ne_nil _ _)

end Fields

/-! ## Records -/

section Records
variable {d : Dialect} {s : Scan} {m : Mode} {field : List UInt8} {fields : List (List UInt8)}
  {records : List (List (List UInt8))}

/-- Both line ends end a record once. -/
theorem Shows.lineEnd (distinct : d.Distinct) (h : s.Shows m field fields records)
    (hm : m ≠ .quoted) (inside : m ≠ .recordStart) (lineEnd : LineEnd) :
    (lineEnd.bytes.foldl (step d) s).Shows .recordStart [] [] (records ++ [fields ++ [field]]) := by
  cases lineEnd with
  | lf => exact h.step_lineEnd distinct hm inside rfl
  | crlf => exact (h.step_lineEnd distinct hm inside rfl).step_between rfl
  | cr => exact h.step_lineEnd distinct hm inside rfl

/-- A written record is read as it was. -/
theorem Shows.encodeRecord (distinct : d.Distinct) (h : s.Shows .recordStart [] [] records)
    (nonempty : fields ≠ []) (lineEnd : LineEnd) :
    ((d.encodeRecord fields ++ lineEnd.bytes).foldl (step d) s).Shows .recordStart [] []
      (records ++ [fields]) := by
  obtain ⟨first, rest, rfl⟩ := List.exists_cons_of_ne_nil nonempty
  rw [List.foldl_append, Dialect.encodeRecord]
  split
  -- Only a single empty field makes an empty line, which would be passed over.
  · rename_i empty
    rw [fields_of_line_eq_nil (List.isEmpty_iff.1 empty)]
    have quotes : ((d.quoteField []).foldl (step d) s).Shows .quoteSeen [] [] records :=
      (h.step_open distinct (.inl rfl)).step_quote
    exact quotes.lineEnd distinct nofun nofun lineEnd
  · rename_i written
    obtain ⟨m, before, last, cut, shows, unquoted, start⟩ :=
      h.joined distinct (.inl rfl) first rest
    have inside : m ≠ .recordStart := fun h => written (List.isEmpty_iff.2 (start h).2)
    have := shows.lineEnd distinct unquoted inside lineEnd
    rwa [List.nil_append, ← cut] at this

/-- Lines that are written add their fields as records, in order. -/
theorem Shows.lines (distinct : d.Distinct) (h : s.Shows .recordStart [] [] records)
    (lineEnd : LineEnd) (lines : List (List (List UInt8)))
    (nonempty : ∀ fields ∈ lines, fields ≠ []) :
    ((lines.flatMap fun fields => d.encodeRecord fields ++ lineEnd.bytes).foldl (step d) s).Shows
      .recordStart [] [] (records ++ lines) := by
  induction lines generalizing s records with
  | nil => rwa [List.append_nil]
  | cons fields lines ih =>
    rw [List.flatMap_cons, List.foldl_append]
    have := ih (h.encodeRecord distinct (nonempty fields List.mem_cons_self) lineEnd)
      fun fields hf => nonempty fields (List.mem_cons_of_mem _ hf)
    rwa [List.append_assoc] at this

/-- At the end of the text nothing is left over. -/
theorem Shows.map_fields_finish (h : s.Shows .recordStart field fields records) :
    s.finish.map Record.fields = records := by
  rw [finish, h.mode, ← h.records, List.map_reverse]

end Records

end Scan

theorem LineEnd.lt_of_mem_bytes {lineEnd : LineEnd} {b : UInt8} (h : b ∈ lineEnd.bytes) :
    b < 0x80 := by
  have ends : b = 10 ∨ b = 13 := by
    cases lineEnd with
    | lf => exact .inl (List.mem_singleton.1 h)
    | crlf => exact (List.mem_cons.1 h).elim .inr fun h => .inl (List.mem_singleton.1 h)
    | cr => exact .inr (List.mem_singleton.1 h)
  rcases ends with rfl | rfl <;> decide

/-! ## Texts -/

namespace Dialect
variable {d : Dialect} {lines : List (List (List UInt8))}

/-- The records of a text are those that were written, if it has no byte order mark. -/
theorem map_fields_records (distinct : d.Distinct) (lineEnd : LineEnd)
    (nonempty : ∀ fields ∈ lines, fields ≠ [])
    (unmarked : byteOrderMark.isPrefixOf
      (lines.flatMap fun fields => d.encodeRecord fields ++ lineEnd.bytes) = false) :
    (d.records (lines.flatMap fun fields => d.encodeRecord fields ++ lineEnd.bytes)).map
      Record.fields = lines := by
  have start : ({} : Scan).Shows .recordStart [] [] [] := ⟨rfl, rfl, rfl, rfl⟩
  rw [records, if_neg (by rw [unmarked]; nofun)]
  exact (start.lines distinct lineEnd lines nonempty).map_fields_finish

/-! ### No byte order mark -/

theorem mem_encodeField {b : UInt8} {field : List UInt8} (h : b ∈ d.encodeField field) :
    b ∈ field ∨ b = d.quote := by
  unfold encodeField quoteField at h
  split at h
  · simp only [List.mem_cons, List.mem_append, List.mem_flatMap, List.not_mem_nil, or_false] at h
    rcases h with h | ⟨c, hc, h⟩ | h
    · exact .inr h
    · left
      split at h <;> simp_all
    · exact .inr h
  · exact .inl h

theorem mem_joined {b : UInt8} {fields : List (List UInt8)}
    (h : b ∈ [d.delimiter].intercalate (fields.map d.encodeField)) :
    (∃ field ∈ fields, b ∈ d.encodeField field) ∨ b = d.delimiter := by
  induction fields with
  | nil => cases h
  | cons first rest ih =>
    cases rest with
    | nil =>
      rw [Scan.intercalate_encodeField_singleton] at h
      exact .inl ⟨first, List.mem_cons_self, h⟩
    | cons second rest =>
      rw [Scan.intercalate_encodeField_cons, List.mem_append, List.mem_cons] at h
      rcases h with h | h | h
      · exact .inl ⟨first, List.mem_cons_self, h⟩
      · exact .inr h
      · exact (ih h).imp_left fun ⟨field, hf, hb⟩ => ⟨field, List.mem_cons_of_mem _ hf, hb⟩

theorem mem_encodeRecord {b : UInt8} {fields : List (List UInt8)} (h : b ∈ d.encodeRecord fields) :
    (∃ field ∈ fields, b ∈ field) ∨ b = d.delimiter ∨ b = d.quote := by
  simp only [encodeRecord] at h
  split at h
  · have quotes : b = d.quote ∨ b = d.quote := by simpa [quoteField] using h
    exact .inr (.inr (quotes.elim id id))
  · rcases mem_joined h with ⟨field, hf, hb⟩ | hb
    · exact (mem_encodeField hb).imp (fun hb => ⟨field, hf, hb⟩) .inr
    · exact .inr (.inl hb)

/-- A byte order mark has three different bytes outside ASCII, of which only two can structure
records. -/
theorem unmarked_of_ascii {text : List UInt8}
    (h : ∀ b ∈ text, b < 0x80 ∨ b = d.delimiter ∨ b = d.quote) :
    byteOrderMark.isPrefixOf text = false := by
  rw [← Bool.not_eq_true]
  intro marked
  obtain ⟨rest, rfl⟩ := List.isPrefixOf_iff_prefix.1 marked
  have first := (h 0xEF (by simp [byteOrderMark])).resolve_left (by decide)
  have second := (h 0xBB (by simp [byteOrderMark])).resolve_left (by decide)
  have third := (h 0xBF (by simp [byteOrderMark])).resolve_left (by decide)
  generalize d.delimiter = delimiter at *
  generalize d.quote = quote at *
  grind

end Dialect

end Curves.Csv
