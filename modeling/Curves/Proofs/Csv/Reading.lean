import Curves.Proofs.Csv.RoundTrip

/-!
# What reading a column answers

A column is read record by record, and the first record that is not text or has no number stops it.
So the answer is determined by the data records in order: either each of them has a number or is
passed over, and these numbers are the answer, or the first one that offends gives the error.

Main statements:

* `mapM_eq_ok_iff`, `mapM_eq_error_iff`: reading one by one, up to the first failure;
* `Dialect.map_index_records`: records are numbered from zero;
* `Selection.rowValue_eq_ok_iff`, `Selection.rowValue_eq_error_iff`: what is read of one row;
* `readColumn_eq_iff`: the answer for every text and every selection.
-/

namespace Curves.Csv

/-! ## One by one -/

section MapM
variable {α β ε : Type} {f : α → Except ε β} {xs : List α}

/-- A traversal succeeds if every element has its result. -/
theorem mapM_eq_ok_iff {ys : List β} :
    xs.mapM f = .ok ys ↔ List.Forall₂ (fun x y => f x = .ok y) xs ys := by
  induction xs generalizing ys with
  | nil => cases ys <;> simp [pure, Except.pure]
  | cons x xs ih =>
    rw [List.mapM_cons]
    cases first : f x with
    | error e => cases ys <;> simp [bind, Except.bind, first]
    | ok y =>
      cases rest : xs.mapM f <;> cases ys <;>
        simp [bind, Except.bind, pure, Except.pure, ← ih, first, rest]

/-- A traversal fails at the first element that fails. -/
theorem mapM_eq_error_iff {e : ε} : xs.mapM f = .error e ↔ ∃ before x after,
    xs = before ++ x :: after ∧ (∀ y ∈ before, ∃ z, f y = .ok z) ∧ f x = .error e := by
  induction xs with
  | nil => simp [pure, Except.pure]
  | cons x xs ih =>
    -- the first failure is that of `x`, or it comes behind
    have split : (∃ before y after, x :: xs = before ++ y :: after ∧
        (∀ z ∈ before, ∃ v, f z = .ok v) ∧ f y = .error e) ↔
          f x = .error e ∨ (∃ v, f x = .ok v) ∧ xs.mapM f = .error e := by
      rw [ih]
      constructor
      · rintro ⟨_ | ⟨z, before⟩, y, after, parts, fine, fails⟩
        · obtain ⟨rfl, rfl⟩ := List.cons.inj parts
          exact .inl fails
        · obtain ⟨rfl, rfl⟩ := List.cons.inj parts
          obtain ⟨head, fine⟩ := List.forall_mem_cons.1 fine
          exact .inr ⟨head, before, y, after, rfl, fine, fails⟩
      · rintro (fails | ⟨head, before, y, after, rfl, fine, fails⟩)
        · exact ⟨[], x, xs, rfl, by simp, fails⟩
        · exact ⟨x :: before, y, after, rfl, List.forall_mem_cons.2 ⟨head, fine⟩, fails⟩
    rw [split, List.mapM_cons]
    cases first : f x with
    | error e' => simp [bind, Except.bind]
    | ok y => cases rest : xs.mapM f <;> simp [bind, Except.bind, pure, Except.pure]

end MapM

/-! ## Numbers of records -/

/-- The records that have been read are numbered from zero. -/
def Scan.Numbered (s : Scan) : Prop := s.records.reverse.map Record.index = List.range s.count

namespace Scan
variable {s : Scan}

theorem Numbered.endRecord (h : s.Numbered) : s.endRecord.Numbered := by
  unfold Numbered at h ⊢
  rw [Scan.endRecord, List.reverse_cons, List.map_append, h, List.range_succ]
  rfl

theorem Numbered.unquoted (h : s.Numbered) (d : Dialect) (b : UInt8) :
    (s.unquoted d b).Numbered := by
  unfold Scan.unquoted
  split_ifs
  · exact h
  · exact h.endRecord
  · exact h

theorem Numbered.first (h : s.Numbered) (d : Dialect) (b : UInt8) : (s.first d b).Numbered := by
  unfold Scan.first
  split_ifs
  · exact h
  · exact h.unquoted d b

theorem Numbered.act (h : s.Numbered) (d : Dialect) (b : UInt8) (mode : Mode) :
    (s.act d b mode).Numbered := by
  cases mode <;> dsimp only [Scan.act] <;> try split_ifs
  · exact h
  · exact h.first d b
  · exact h.first d b
  · exact h.unquoted d b
  · exact h
  · exact h
  · exact h
  · exact h.unquoted d b

theorem Numbered.step (h : s.Numbered) (d : Dialect) (b : UInt8) : (s.step d b).Numbered := by
  have moved : Numbered { s with
    byte := s.byte + 1, line := if b = 10 then s.line + 1 else s.line } := h
  have acted := moved.act d b s.mode
  obtain ⟨mode, _, _, _, _, _, _, _, _⟩ := s
  cases mode <;> exact acted

theorem Numbered.foldl (h : s.Numbered) (d : Dialect) (bytes : List UInt8) :
    (bytes.foldl (Scan.step d) s).Numbered := by
  induction bytes generalizing s with
  | nil => exact h
  | cons b bytes ih => exact ih (h.step d b)

/-- The records of a text are numbered in order from zero. -/
theorem Numbered.map_index_finish (h : s.Numbered) :
    ∃ n, s.finish.map Record.index = List.range n := by
  unfold Scan.finish
  split
  · exact ⟨_, h⟩
  · exact ⟨_, h.endRecord⟩

end Scan

/-- The number of a record is its place in the text. -/
theorem Dialect.map_index_records (d : Dialect) (text : List UInt8) :
    (d.records text).map Record.index = List.range (d.records text).length := by
  have start (byte : Nat) : Scan.Numbered { byte := byte } := rfl
  have numbered : ∃ n, (d.records text).map Record.index = List.range n := by
    unfold Dialect.records
    split_ifs
    · exact ((start _).foldl d _).map_index_finish
    · exact ((start 0).foldl d text).map_index_finish
  obtain ⟨n, indices⟩ := numbered
  have length := congrArg List.length indices
  rw [List.length_map, List.length_range] at length
  rw [indices, length]

end Curves.Csv

/-! ## Texts -/

namespace Curves.Text

/-- Bytes are text if they are those of a text. -/
theorem decode_eq_ok_iff {bytes : List UInt8} {text : String} :
    decode bytes = .ok text ↔ bytes = encode text := by
  constructor
  · intro h
    unfold decode String.fromUTF8? at h
    by_cases valid : (⟨bytes.toArray⟩ : ByteArray).IsValidUTF8
    · rw [dif_pos valid] at h
      obtain rfl := Except.ok.inj h
      rw [encode_eq]
      rfl
    · rw [dif_neg valid] at h
      cases h
  · rintro rfl
    exact decode_encode text

/-- Bytes are no text if no text has them as its code, and the error counts those before the first
that is wrong. -/
theorem decode_eq_error_iff {bytes : List UInt8} {n : Nat} :
    decode bytes = .error n ↔ (∀ text, bytes ≠ encode text) ∧ n = textPrefix bytes := by
  cases decoded : decode bytes with
  | ok text => simp [decode_eq_ok_iff.1 decoded]
  | error m =>
    have invalid (text : String) : bytes ≠ encode text := fun h => by
      rw [h, decode_encode] at decoded
      cases decoded
    have size : m = textPrefix bytes := by
      unfold decode at decoded
      split at decoded
      · cases decoded
      · exact (Except.error.inj decoded).symm
    simp [invalid, size, eq_comm]

end Curves.Text

namespace Curves.Csv

def Record.IsText (record : Record) (texts : List String) : Prop :=
  record.fields = texts.map Text.encode

/-- The error names the first field of the record that is not text, and its first byte that is not,
at the place of `origin`. -/
def Record.FailsAsText (record origin : Record) (error : Error) : Prop :=
  ∃ (texts : List String) (field : List UInt8) (after : List (List UInt8)),
    record.fields = texts.map Text.encode ++ field :: after ∧
    (∀ text, field ≠ Text.encode text) ∧
    error = .notText origin.index origin.line texts.length origin.byte (Text.textPrefix field)

section Texts
variable {record origin : Record}

/-- The text of a field, or the error that names its place. -/
def decodeField (origin : Record) : List UInt8 × Nat → Except Error String
  | (field, i) =>
    match Text.decode field with
    | .ok text => .ok text
    | .error valid => .error (.notText origin.index origin.line i origin.byte valid)

theorem texts_eq_mapM (record origin : Record) :
    record.texts origin = record.fields.zipIdx.mapM (decodeField origin) := rfl

theorem decodeField_eq_ok_iff {field : List UInt8} {i : Nat} {text : String} :
    decodeField origin (field, i) = .ok text ↔ field = Text.encode text := by
  rw [← Text.decode_eq_ok_iff, decodeField]
  split <;> simp [*]

theorem decodeField_eq_error_iff {field : List UInt8} {i : Nat} {error : Error} :
    decodeField origin (field, i) = .error error ↔ (∀ text, field ≠ Text.encode text) ∧
      error = .notText origin.index origin.line i origin.byte (Text.textPrefix field) := by
  cases decoded : Text.decode field with
  | ok text => simp [decodeField, Text.decode_eq_ok_iff.1 decoded, Text.decode_encode]
  | error n =>
    obtain ⟨invalid, rfl⟩ := Text.decode_eq_error_iff.1 decoded
    simp [decodeField, decoded, invalid, eq_comm]

/-- The fields of a record are text exactly if each is the code of one. -/
theorem texts_eq_ok_iff {texts : List String} :
    record.texts origin = .ok texts ↔ record.IsText texts := by
  refine ⟨fun h => ?_, texts_eq origin⟩
  rw [texts_eq_mapM, mapM_eq_ok_iff] at h
  have fields : List.Forall₂ (fun p text => p.1 = Text.encode text) record.fields.zipIdx texts :=
    h.imp fun p text => decodeField_eq_ok_iff.1
  have images := List.forall₂_map_left_iff.2 (List.forall₂_map_right_iff.2 fields)
  rwa [List.forall₂_eq_eq_eq, List.zipIdx_map_fst] at images

/-- A record fails as text at its first field that is not text. -/
theorem texts_eq_error_iff {error : Error} :
    record.texts origin = .error error ↔ record.FailsAsText origin error := by
  rw [texts_eq_mapM, mapM_eq_error_iff]
  constructor
  · rintro ⟨before, ⟨field, i⟩, after, parts, fine, fails⟩
    choose! text decoded using fine
    obtain ⟨invalid, rfl⟩ := decodeField_eq_error_iff.1 fails
    have place := congrArg (·[before.length]?) parts
    simp only [List.getElem?_zipIdx, List.getElem?_append_right (Nat.le_refl _), Nat.sub_self,
      List.getElem?_cons_zero, Option.map_eq_some_iff, Prod.mk.injEq] at place
    obtain ⟨-, -, -, rfl⟩ := place
    have fields := congrArg (List.map Prod.fst) parts
    have texts : before.map Prod.fst = (before.map text).map Text.encode := by
      rw [List.map_map]
      exact List.map_congr_left fun p hp => decodeField_eq_ok_iff.1 (decoded p hp)
    rw [List.zipIdx_map_fst, List.map_append, List.map_cons, texts] at fields
    exact ⟨_, _, _, fields, invalid, by rw [List.length_map, Nat.zero_add]⟩
  · rintro ⟨texts, field, after, fields, invalid, rfl⟩
    refine ⟨(texts.map Text.encode).zipIdx, (field, texts.length), after.zipIdx (texts.length + 1),
      ?_, fun p hp => ?_, decodeField_eq_error_iff.2 ⟨invalid, rfl⟩⟩
    · rw [fields, List.zipIdx_append, List.zipIdx_cons, List.length_map, Nat.zero_add]
    · obtain ⟨text, -, encoded⟩ := List.mem_map.1 (List.fst_mem_of_mem_zipIdx hp)
      exact ⟨text, decodeField_eq_ok_iff.2 encoded.symm⟩

end Texts

/-! ## Rows -/

/-- The number that a field denotes: as it stands without blanks at its ends, or else with its
commas taken for points. -/
def Denotes (field : String) (value : Float) : Prop :=
  Number.read? (trimmed field) = some value ∨ Number.read? (trimmed field) = none ∧
    Number.read? ((trimmed field).map fun c => if c = ',' then '.' else c) = some value

/-- What is read of a field is the number that it denotes. -/
theorem fieldValue?_eq_some_iff {field : String} {value : Float} :
    fieldValue? (trimmed field) = some value ↔ Denotes field value := by
  unfold fieldValue? Denotes
  cases Number.read? (trimmed field) <;> simp

theorem fieldValue?_eq_none_iff {field : String} :
    fieldValue? (trimmed field) = none ↔ ∀ value, ¬ Denotes field value := by
  simp only [Option.eq_none_iff_forall_ne_some, Ne, fieldValue?_eq_some_iff]

theorem Denotes.trimmed_ne_nil {field : String} {value : Float} (h : Denotes field value) :
    trimmed field ≠ [] := by
  intro empty
  rw [← fieldValue?_eq_some_iff, empty] at h
  exact Option.some_ne_none _ (h.symm.trans rfl)

namespace Selection

/-- What is read of a row with these fields: the number that its field denotes, or nothing if the
field is absent or blank and such rows are passed over. -/
inductive Reads (selection : Selection) (column : Nat) (fields : List String) : Option Float → Prop
  | number {field : String} {value : Float} : fields[column]? = some field →
      Denotes field value → Reads selection column fields (some value)
  | passed : selection.skipsBlanks = true → (∀ field ∈ fields[column]?, trimmed field = []) →
      Reads selection column fields none

/-- Why nothing can be read of a row with these fields. -/
inductive Lacks (selection : Selection) (column : Nat) (fields : List String) : FieldProblem → Prop
  | absent : selection.skipsBlanks = false → fields[column]? = none →
      Lacks selection column fields (.absent fields.length)
  | empty {field : String} : selection.skipsBlanks = false → fields[column]? = some field →
      trimmed field = [] → Lacks selection column fields .empty
  | notANumber {field : String} : fields[column]? = some field → trimmed field ≠ [] →
      (∀ value, ¬ Denotes field value) →
      Lacks selection column fields (.notANumber (String.ofList (trimmed field)))

section Row
variable {selection : Selection} {column row : Nat} {fields : List String}

theorem Reads.rowValue_eq {found : Option Float} (h : selection.Reads column fields found)
    (row : Nat) : selection.rowValue column row fields = .ok found := by
  unfold rowValue
  cases h with
  | number field denotes =>
    rw [field]
    simp [denotes.trimmed_ne_nil, fieldValue?_eq_some_iff.2 denotes]
  | passed skips blank =>
    cases field : fields[column]? with
    | none => simp [skips]
    | some text => simp [skips, blank text field]

theorem Lacks.rowValue_eq {problem : FieldProblem} (h : selection.Lacks column fields problem)
    (row : Nat) :
    selection.rowValue column row fields = .error (.badField row column problem) := by
  unfold rowValue
  cases h with
  | absent strict field => simp [strict, field]
  | empty strict field blank => simp [strict, field, blank]
  | notANumber field text none =>
    rw [field]
    simp [text, fieldValue?_eq_none_iff.2 none]

/-- A row is read, or it says why not. -/
theorem reads_or_lacks (selection : Selection) (column : Nat) (fields : List String) :
    (∃ found, selection.Reads column fields found) ∨
      ∃ problem, selection.Lacks column fields problem := by
  cases field : fields[column]? with
  | none =>
    cases skips : selection.skipsBlanks with
    | false => exact .inr ⟨_, .absent skips field⟩
    | true => exact .inl ⟨_, .passed skips (by simp [field])⟩
  | some text =>
    by_cases blank : trimmed text = []
    · cases skips : selection.skipsBlanks with
      | false => exact .inr ⟨_, .empty skips field blank⟩
      | true => exact .inl ⟨_, .passed skips (by simp [field, blank])⟩
    · by_cases denotes : ∃ value, Denotes text value
      · obtain ⟨value, denotes⟩ := denotes
        exact .inl ⟨_, .number field denotes⟩
      · exact .inr ⟨_, .notANumber field blank (not_exists.1 denotes)⟩

/-- Exactly what can be read of a row is read. -/
theorem rowValue_eq_ok_iff {found : Option Float} :
    selection.rowValue column row fields = .ok found ↔ selection.Reads column fields found := by
  refine ⟨fun value => ?_, fun h => h.rowValue_eq row⟩
  rcases selection.reads_or_lacks column fields with ⟨found', h⟩ | ⟨problem, h⟩
  · rwa [← Except.ok.inj ((h.rowValue_eq row).symm.trans value)]
  · cases (h.rowValue_eq row).symm.trans value

/-- A row fails exactly for what it lacks. -/
theorem rowValue_eq_error_iff {error : Error} :
    selection.rowValue column row fields = .error error ↔
      ∃ problem, selection.Lacks column fields problem ∧ error = .badField row column problem := by
  constructor
  · intro value
    rcases selection.reads_or_lacks column fields with ⟨found, h⟩ | ⟨problem, h⟩
    · cases (h.rowValue_eq row).symm.trans value
    · exact ⟨problem, h, (Except.error.inj ((h.rowValue_eq row).symm.trans value)).symm⟩
  · rintro ⟨problem, h, rfl⟩
    exact h.rowValue_eq row

end Row

end Selection

/-! ## Records -/

def Record.Reads (record : Record) (selection : Selection) (column : Nat) (found : Option Float) :
    Prop :=
  ∃ fields, record.IsText fields ∧ selection.Reads column fields found

/-- Why a record cannot be read: it is not text, or its fields lack a number. -/
inductive Record.Offends (record origin : Record) (selection : Selection) (column row : Nat) :
    Error → Prop
  | notText {error : Error} : record.FailsAsText origin error →
      Offends record origin selection column row error
  | badField {fields : List String} {problem : FieldProblem} : record.IsText fields →
      selection.Lacks column fields problem →
      Offends record origin selection column row (.badField row column problem)

section Records
variable {record origin : Record} {selection : Selection} {column row : Nat}

/-- Exactly what can be read of a record is read. -/
theorem read_eq_ok_iff {found : Option Float} :
    (record.texts origin >>= selection.rowValue column row) = .ok found ↔
      record.Reads selection column found := by
  have text (fields : List String) : record.IsText fields ↔ record.texts origin = .ok fields :=
    texts_eq_ok_iff.symm
  have value (fields : List String) : selection.Reads column fields found ↔
      selection.rowValue column row fields = .ok found := Selection.rowValue_eq_ok_iff.symm
  simp only [Record.Reads, text, value]
  cases record.texts origin <;> simp [bind, Except.bind]

/-- A record fails exactly if it offends. -/
theorem read_eq_error_iff {error : Error} :
    (record.texts origin >>= selection.rowValue column row) = .error error ↔
      record.Offends origin selection column row error := by
  constructor
  · cases texts : record.texts origin with
    | error e =>
      intro fails
      obtain rfl := Except.error.inj fails
      exact .notText (texts_eq_error_iff.1 texts)
    | ok fields =>
      intro fails
      obtain ⟨problem, lacks, rfl⟩ := Selection.rowValue_eq_error_iff.1 fails
      exact .badField (texts_eq_ok_iff.1 texts) lacks
  · rintro (fails | ⟨texts, lacks⟩)
    · rw [texts_eq_error_iff.2 fails]
      rfl
    · rw [texts_eq_ok_iff.2 texts]
      exact lacks.rowValue_eq row

end Records

/-! ## Columns -/

/-- Whether a title is the name, but for blanks at its ends and the case of ASCII letters. -/
def Names (name title : String) : Prop := sameName (trimmed title) name.toList

namespace Selection

/-- The titles of the header; where there are no records there are none. -/
def IsHeader (records : List Record) (titles : List String) : Prop :=
  records.head?.elim [] Record.fields = titles.map Text.encode

/-- Which column is selected: the one at the given place, or the first whose title is the name. -/
inductive Selects (selection : Selection) (records : List Record) : Nat → Prop
  | place {i : Nat} : selection.column = .place i → Selects selection records i
  | name {name title : String} {titles : List String} {i : Nat} :
      selection.column = .name name → selection.header = true → IsHeader records titles →
      titles[i]? = some title → Names name title →
      (∀ j < i, ∀ other, titles[j]? = some other → ¬ Names name other) →
      Selects selection records i

/-- Why no column is selected: there is no header with the name, or the header is not text. -/
inductive Misses (selection : Selection) (records : List Record) : Error → Prop
  | unnamed {name : String} : selection.column = .name name → selection.header = false →
      Misses selection records (.missingColumn name)
  | missing {name : String} {titles : List String} : selection.column = .name name →
      selection.header = true → IsHeader records titles → (∀ title ∈ titles, ¬ Names name title) →
      Misses selection records (.missingColumn name)
  | header {name : String} {record : Record} {error : Error} : selection.column = .name name →
      selection.header = true → records.head? = some record → record.FailsAsText record error →
      Misses selection records error

section Columns
variable {selection : Selection} {records : List Record}

def headerTitles (records : List Record) : Except Error (List String) :=
  match records with
  | [] => .ok []
  | record :: _ => record.texts record

/-- The titles of the header are found unless it is not text. -/
theorem headerTitles_eq_ok_iff {titles : List String} :
    headerTitles records = .ok titles ↔ IsHeader records titles := by
  cases records with
  | nil => cases titles <;> simp [headerTitles, IsHeader]
  | cons record records => exact texts_eq_ok_iff

theorem headerTitles_eq_error_iff {error : Error} : headerTitles records = .error error ↔
    ∃ record, records.head? = some record ∧ record.FailsAsText record error := by
  cases records with
  | nil => simp [headerTitles]
  | cons record records => simp [headerTitles, texts_eq_error_iff]

theorem columnIndex_of_name {name : String} (column : selection.column = .name name)
    (header : selection.header = true) : selection.columnIndex records =
      headerTitles records >>= fun titles =>
        match titles.findIdx? fun title => sameName (trimmed title) name.toList with
        | some i => return i
        | none => .error (.missingColumn name) := by
  unfold columnIndex
  rw [column]
  simp only [header]
  cases records <;> rfl

theorem Selects.columnIndex_eq {i : Nat} (h : selection.Selects records i) :
    selection.columnIndex records = .ok i := by
  cases h with
  | place column => rw [columnIndex, column]
  | @name name title titles _ column header read found named first =>
    obtain ⟨inside, rfl⟩ := List.getElem?_eq_some_iff.1 found
    have place : titles.findIdx? (fun title => sameName (trimmed title) name.toList) = some i :=
      List.findIdx?_eq_some_iff_getElem.2 ⟨inside, named, fun j hj =>
        first j hj _ (List.getElem?_eq_getElem (hj.trans inside))⟩
    rw [columnIndex_of_name column header, headerTitles_eq_ok_iff.2 read]
    simp [bind, Except.bind, place, pure, Except.pure]

theorem Misses.columnIndex_eq {error : Error} (h : selection.Misses records error) :
    selection.columnIndex records = .error error := by
  cases h with
  | unnamed column header =>
    rw [columnIndex, column]
    simp [header]
  | @missing name titles column header read none =>
    have place : titles.findIdx? (fun title => sameName (trimmed title) name.toList) = .none := by
      rw [List.findIdx?_eq_none_iff]
      exact fun title ht => Bool.eq_false_iff.2 (none title ht)
    rw [columnIndex_of_name column header, headerTitles_eq_ok_iff.2 read]
    simp [bind, Except.bind, place]
  | header column header first fails =>
    rw [columnIndex_of_name column header, headerTitles_eq_error_iff.2 ⟨_, first, fails⟩]
    rfl

/-- A column is selected, or there is a reason why not. -/
theorem selects_or_misses (selection : Selection) (records : List Record) :
    (∃ i, selection.Selects records i) ∨ ∃ error, selection.Misses records error := by
  cases column : selection.column with
  | place i => exact .inl ⟨i, .place column⟩
  | name name =>
    cases header : selection.header with
    | false => exact .inr ⟨_, .unnamed column header⟩
    | true =>
      cases read : headerTitles records with
      | error error =>
        obtain ⟨record, first, fails⟩ := headerTitles_eq_error_iff.1 read
        exact .inr ⟨error, .header column header first fails⟩
      | ok titles =>
        have titles_eq := headerTitles_eq_ok_iff.1 read
        cases place : titles.findIdx? fun title => sameName (trimmed title) name.toList with
        | none =>
          rw [List.findIdx?_eq_none_iff] at place
          exact .inr ⟨_, .missing column header titles_eq fun title ht =>
            Bool.eq_false_iff.1 (place title ht)⟩
        | some i =>
          obtain ⟨inside, named, first⟩ := List.findIdx?_eq_some_iff_getElem.1 place
          refine .inl ⟨i, .name column header titles_eq (List.getElem?_eq_getElem inside) named ?_⟩
          intro j hj other found
          obtain ⟨-, rfl⟩ := List.getElem?_eq_some_iff.1 found
          exact first j hj

end Columns

/-! ## Answers -/

def data (selection : Selection) (records : List Record) : List Record :=
  if selection.header then records.drop 1 else records

def firstRow (selection : Selection) : Nat := if selection.header then 2 else 1

/-- What reading a column answers. Either no column is selected, or some data record is the first
that offends, or every data record has a number or is passed over. -/
inductive Answers (selection : Selection) (records : List Record) : Except Error Column → Prop
  | unselected {error : Error} : selection.Misses records error →
      Answers selection records (.error error)
  | offending {i : Nat} {before after : List Record} {record origin : Record} {error : Error} :
      selection.Selects records i → selection.data records = before ++ record :: after →
      (∀ earlier ∈ before, ∃ found, earlier.Reads selection i found) →
      (selection.rows records)[before.length]? = some (record, origin) →
      record.Offends origin selection i (selection.firstRow + before.length) error →
      Answers selection records (.error error)
  | values {i : Nat} {found : List (Option Float)} : selection.Selects records i →
      List.Forall₂ (Record.Reads · selection i) (selection.data records) found →
      Answers selection records (.ok ⟨found.filterMap id, found.countP Option.isNone, i⟩)

end Selection

section Answers
variable {selection : Selection} {text : List UInt8} {column i : Nat}

def readRow (selection : Selection) (column : Nat) : Record × Record → Except Error (Option Float)
  | (row, origin) => row.texts origin >>= selection.rowValue column (row.index + 1)

theorem readColumn_of_selects (h : selection.Selects (selection.dialect.records text) i) :
    readColumn selection text =
      ((selection.rows (selection.dialect.records text)).mapM (readRow selection i)).map
        fun found => ⟨found.filterMap id, found.countP Option.isNone, i⟩ := by
  unfold readColumn
  simp only [h.columnIndex_eq]
  rfl

theorem readColumn_of_misses {error : Error}
    (h : selection.Misses (selection.dialect.records text) error) :
    readColumn selection text = .error error := by
  unfold readColumn
  simp only [h.columnIndex_eq]
  rfl

/-- What is read of a row is what is read of its record. -/
theorem readRow_eq_ok_iff {row : Record × Record} {found : Option Float} :
    readRow selection column row = .ok found ↔ row.1.Reads selection column found :=
  read_eq_ok_iff

theorem map_fst_rows_eq_data (selection : Selection) (records : List Record) :
    (selection.rows records).map Prod.fst = selection.data records :=
  selection.map_fst_rows records

/-- A data record is numbered by its place. -/
theorem index_of_row {row : Record × Record} {n : Nat}
    (h : (selection.rows (selection.dialect.records text))[n]? = some row) :
    row.1.index + 1 = selection.firstRow + n := by
  have numbered {k : Nat} (read : (selection.dialect.records text)[k]? = some row.1) :
      row.1.index = k := by
    have index := congrArg (·[k]?) (selection.dialect.map_index_records text)
    rw [List.getElem?_map, read, Option.map_some, eq_comm, List.getElem?_eq_some_iff] at index
    obtain ⟨inside, same⟩ := index
    rw [← same, List.getElem_range]
  have record := congrArg (·[n]?)
    (map_fst_rows_eq_data selection (selection.dialect.records text))
  rw [List.getElem?_map, h] at record
  unfold Selection.data at record
  unfold Selection.firstRow
  split_ifs at record ⊢ with header
  · rw [List.getElem?_drop] at record
    rw [numbered record.symm]
    omega
  · rw [numbered record.symm, Nat.add_comm]

/-- Whatever is an answer is what reading a column gives. -/
theorem Selection.Answers.readColumn_eq {answer : Except Error Column}
    (h : selection.Answers (selection.dialect.records text) answer) :
    readColumn selection text = answer := by
  cases h with
  | unselected misses => exact readColumn_of_misses misses
  | @offending i before after record origin error selects split fine row offends =>
    have fails : (selection.rows (selection.dialect.records text)).mapM (readRow selection i) =
        .error error := by
      rw [← map_fst_rows_eq_data, List.map_eq_append_iff] at split
      obtain ⟨earlier, rest, rows, rfl, others⟩ := split
      obtain ⟨row', later, rfl, -, -⟩ := List.map_eq_cons_iff.1 others
      rw [List.length_map] at row offends
      have number := index_of_row row
      rw [rows, List.getElem?_append_right (Nat.le_refl _), Nat.sub_self,
        List.getElem?_cons_zero] at row
      obtain rfl := Option.some_inj.1 row
      refine mapM_eq_error_iff.2 ⟨earlier, _, later, rows, fun r hr => ?_, ?_⟩
      · obtain ⟨found, reads⟩ := fine r.1 (List.mem_map_of_mem hr)
        exact ⟨found, readRow_eq_ok_iff.2 reads⟩
      · rw [← number] at offends
        exact read_eq_error_iff.2 offends
    rw [readColumn_of_selects selects, fails]
    rfl
  | values selects read =>
    rw [← map_fst_rows_eq_data, List.forall₂_map_left_iff] at read
    rw [readColumn_of_selects selects,
      mapM_eq_ok_iff.2 (read.imp fun row found => readRow_eq_ok_iff.2)]
    rfl

/-- What reading a column gives is an answer. -/
theorem answers_readColumn (selection : Selection) (text : List UInt8) :
    selection.Answers (selection.dialect.records text) (readColumn selection text) := by
  rcases selection.selects_or_misses (selection.dialect.records text) with
    ⟨i, selects⟩ | ⟨error, misses⟩
  · rw [readColumn_of_selects selects]
    cases read : (selection.rows (selection.dialect.records text)).mapM (readRow selection i) with
    | ok found =>
      refine .values selects ?_
      rw [← map_fst_rows_eq_data, List.forall₂_map_left_iff]
      exact (mapM_eq_ok_iff.1 read).imp fun row found => readRow_eq_ok_iff.1
    | error error =>
      obtain ⟨before, ⟨record, origin⟩, after, split, fine, fails⟩ := mapM_eq_error_iff.1 read
      have records := map_fst_rows_eq_data selection (selection.dialect.records text)
      have row : (selection.rows (selection.dialect.records text))[before.length]? =
          some (record, origin) := by
        simp [split]
      rw [split, List.map_append, List.map_cons] at records
      refine .offending selects records.symm ?_ (by rwa [List.length_map]) ?_
      · rw [List.forall_mem_map]
        exact fun r hr => (fine r hr).imp fun found => readRow_eq_ok_iff.1
      · rw [List.length_map, ← index_of_row row]
        exact read_eq_error_iff.1 fails
  · rw [readColumn_of_misses misses]
    exact .unselected misses

/-- For every text and every selection, the answer is the one that the data records say: a column is
selected and every record has a number in it or is passed over, or the first one that offends gives
the error, or no column is selected. -/
theorem readColumn_eq_iff (selection : Selection) (text : List UInt8)
    (answer : Except Error Column) : readColumn selection text = answer ↔
      selection.Answers (selection.dialect.records text) answer := by
  constructor
  · rintro rfl
    exact answers_readColumn selection text
  · exact Selection.Answers.readColumn_eq

end Answers

example : readColumn { header := true } (Text.encode "x\n1\nabc\n2,5\n-\n") =
    .error (.badField 3 0 (.notANumber "abc")) := by
  decide +kernel

end Curves.Csv
