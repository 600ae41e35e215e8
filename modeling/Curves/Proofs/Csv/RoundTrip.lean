import Curves.Csv.Block
import Curves.Proofs.Csv.Fields
import Curves.Proofs.Csv.Records

/-!
# Tables are read back

A table of numbers that is written without rounding can be read column by column. What is written
are the rows that are not left out, and what is read are the fields that are not blank.

Main statements:

* `Written.readColumn_eq`: reading a table of readable fields gives the values of its fields;
* `readColumn_written`: what is read of a table of values, points or segments.
-/

namespace Curves.Csv

/-! ## Reading -/

/-- Each element is read by itself, whatever its place is. -/
theorem mapM_zipIdx_map {α β ε : Type} {read : α × Nat → Except ε β} {write : β → α}
    (back : ∀ b i, read (write b, i) = .ok b) (l : List β) (start : Nat) :
    ((l.map write).zipIdx start).mapM read = .ok l := by
  induction l generalizing start with
  | nil => rfl
  | cons b l ih =>
    rw [List.map_cons, List.zipIdx_cons, List.mapM_cons, back, ih]
    rfl

/-- Fields that are codes of texts are read as these texts. -/
theorem texts_eq {record : Record} (origin : Record) {fields : List String}
    (h : record.fields = fields.map Text.encode) : record.texts origin = .ok fields := by
  rw [Record.texts, h]
  refine mapM_zipIdx_map (fun field i => ?_) fields 0
  dsimp only
  rw [Text.decode_encode]

namespace Selection
variable {selection : Selection}

/-- The rows that are read are the records behind the header. -/
theorem map_fst_rows (selection : Selection) (records : List Record) :
    (selection.rows records).map Prod.fst =
      if selection.header then records.drop 1 else records := by
  have pairs (rows : List Record) : (rows.map fun row => (row, row)).map Prod.fst = rows := by
    rw [List.map_map]
    exact List.map_id rows
  unfold rows
  cases selection.header with
  | false => exact pairs records
  | true =>
    rw [if_neg nofun, if_pos rfl]
    split
    · rw [List.map_cons, pairs]
      rfl
    · exact pairs _

/-- Each row is read by itself, wherever reading it begins. -/
theorem mapM_rows (skips : selection.skipsBlanks = true) (column : Nat)
    {rows : List (Record × Record)} {lines : List (List String)}
    (h : (rows.map Prod.fst).map Record.fields = lines.map (·.map Text.encode))
    (readable : ∀ fields ∈ lines, ∀ field ∈ fields, Readable field) :
    (rows.mapM fun (row, origin) => do
      let fields ← row.texts origin
      selection.rowValue column (row.index + 1) fields) =
        .ok (lines.map fun fields => fields[column]?.bind value?) := by
  induction rows generalizing lines with
  | nil =>
    obtain rfl := List.map_eq_nil_iff.1 h.symm
    rfl
  | cons row rows ih =>
    obtain ⟨fields, lines, rfl, row_eq, rows_eq⟩ := List.map_eq_cons_iff.1 h.symm
    obtain ⟨row, origin⟩ := row
    have texts := texts_eq origin row_eq.symm
    have value := rowValue_of_readable skips (readable fields List.mem_cons_self) column
      (row.index + 1)
    have rest := ih rows_eq.symm fun fields hf => readable fields (List.mem_cons_of_mem _ hf)
    rw [List.mapM_cons, rest]
    simp only [texts, bind, Except.bind, value]
    rfl

end Selection

/-- Titles without blanks that are told apart. -/
structure Titles (header : List String) : Prop where
  nonempty : header ≠ []
  graphic : header.all (·.toList.all Text.isGraphic)
  distinct : header.Pairwise fun a b => ¬ sameName a.toList b.toList

instance (header : List String) : Decidable (Titles header) :=
  decidable_of_iff (header ≠ [] ∧ header.all (·.toList.all Text.isGraphic) ∧
      header.Pairwise fun a b => ¬ sameName a.toList b.toList)
    ⟨fun ⟨nonempty, graphic, distinct⟩ => ⟨nonempty, graphic, distinct⟩,
      fun ⟨nonempty, graphic, distinct⟩ => ⟨nonempty, graphic, distinct⟩⟩

theorem Titles.graphic_of_mem {header : List String} (titles : Titles header) {title : String}
    (h : title ∈ header) : ∀ c ∈ title.toList, Text.isGraphic c :=
  List.all_eq_true.1 (List.all_eq_true.1 titles.graphic title h)

namespace Written
variable {written : Written} {i : Nat} {choice : ColumnChoice}

/-- A table of which every field is a title or readable. -/
structure Tabular (written : Written) : Prop where
  titles : Titles written.header
  nonempty : ∀ fields ∈ written.records, fields ≠ []
  readable : ∀ fields ∈ written.records, ∀ field ∈ fields, Readable field

/-- How a table that was written is read: as it was written, with blanks passed over. -/
def selection (written : Written) (choice : ColumnChoice) : Selection where
  dialect := written.format.dialect
  header := written.format.header
  column := choice
  skipsBlanks := true

/-- The choice is that of the column at place `i`. -/
def Chooses (written : Written) (i : Nat) : ColumnChoice → Prop
  | .place j => j = i
  | .name name => written.format.header = true ∧
      ∃ title, written.header[i]? = some title ∧ sameName title.toList name.toList

def column (written : Written) (i : Nat) : List Float :=
  written.records.filterMap fun fields => fields[i]?.bind value?

theorem Tabular.line (tabular : written.Tabular) {fields : List String}
    (h : fields ∈ written.lines) :
    fields ≠ [] ∧ ∀ field ∈ fields, ∀ c ∈ field.toList, Text.isGraphic c := by
  have records (h : fields ∈ written.records) :
      fields ≠ [] ∧ ∀ field ∈ fields, ∀ c ∈ field.toList, Text.isGraphic c :=
    ⟨tabular.nonempty fields h, fun field hf => (tabular.readable fields h field hf).graphic⟩
  unfold lines at h
  split at h
  · rcases List.mem_cons.1 h with rfl | h
    · exact ⟨tabular.titles.nonempty, fun _ => tabular.titles.graphic_of_mem⟩
    · exact records h
  · exact records h

/-- The records of the text are the lines of the table. -/
theorem Tabular.map_fields_records (tabular : written.Tabular)
    (distinct : written.format.dialect.Distinct) :
    (written.format.dialect.records written.text).map Record.fields =
      written.lines.map (·.map Text.encode) := by
  have text : written.text = (written.lines.map (·.map Text.encode)).flatMap fun fields =>
      written.format.dialect.encodeRecord fields ++ written.format.lineEnd.bytes := by
    rw [List.flatMap_map]
    rfl
  rw [text]
  refine Dialect.map_fields_records distinct _ ?_
    (Dialect.unmarked_of_ascii (d := written.format.dialect) ?_)
  · simp only [List.forall_mem_map]
    intro fields hf
    rw [Ne, List.map_eq_nil_iff]
    exact (tabular.line hf).1
  · simp only [List.mem_flatMap, List.mem_map]
    rintro b ⟨_, ⟨fields, hf, rfl⟩, hb⟩
    rcases List.mem_append.1 hb with hb | hb
    · rcases Dialect.mem_encodeRecord hb with ⟨_, hfield, hb⟩ | structural
      · obtain ⟨field, hfield', rfl⟩ := List.mem_map.1 hfield
        exact .inl (Text.lt_of_mem_encode ((tabular.line hf).2 field hfield') hb)
      · exact .inr structural
    · exact .inl (written.format.lineEnd.lt_of_mem_bytes hb)

/-- A column is found by its place and by its title. -/
theorem Tabular.columnIndex_eq (tabular : written.Tabular) (chosen : written.Chooses i choice)
    {records : List Record}
    (read : records.map Record.fields = written.lines.map (·.map Text.encode)) :
    (written.selection choice).columnIndex records = .ok i := by
  cases choice with
  | place j => exact congrArg Except.ok chosen
  | name name =>
    obtain ⟨header, title, found, same⟩ := chosen
    obtain ⟨h, rfl⟩ := List.getElem?_eq_some_iff.1 found
    rw [lines, if_pos header, List.map_cons] at read
    obtain ⟨first, rest, rfl, first_eq, -⟩ := List.map_eq_cons_iff.1 read
    have trimmed_title {j : Nat} (hj : j < written.header.length) :
        trimmed written.header[j] = written.header[j].toList :=
      Text.trim_of_graphic (tabular.titles.graphic_of_mem (List.getElem_mem hj))
    have place : written.header.findIdx? (fun title => sameName (trimmed title) name.toList) =
        some i := by
      refine List.findIdx?_eq_some_iff_getElem.2 ⟨h, ?_, ?_⟩
      · rwa [trimmed_title h]
      -- A title before it would have the same name.
      · intro j hj same'
        have apart := List.pairwise_iff_getElem.1 tabular.titles.distinct j i (hj.trans h) h hj
        rw [trimmed_title (hj.trans h)] at same'
        simp only [sameName, beq_iff_eq] at same same' apart
        exact apart (same'.trans same.symm)
    have searched : (!(written.selection (.name name)).header) = false := by
      rw [selection, header]
      rfl
    simp only [Selection.columnIndex, selection, header, texts_eq first first_eq, bind, Except.bind,
      place]
    rfl

/-- Reading a table of readable fields gives the values of its fields. -/
theorem Tabular.readColumn_eq (tabular : written.Tabular)
    (distinct : written.format.dialect.Distinct) (chosen : written.Chooses i choice) :
    ∃ column, readColumn (written.selection choice) written.text = .ok column ∧
      column.index = i ∧ column.values = written.column i := by
  have read := tabular.map_fields_records distinct
  have dialect : (written.selection choice).dialect = written.format.dialect := rfl
  have index := tabular.columnIndex_eq chosen read
  have rows : (((written.selection choice).rows (written.format.dialect.records written.text)).map
      Prod.fst).map Record.fields = written.records.map (·.map Text.encode) := by
    rw [Selection.map_fst_rows]
    have header : (written.selection choice).header = written.format.header := rfl
    rw [header]
    cases hheader : written.format.header with
    | false =>
      rw [lines, hheader] at read
      exact read
    | true =>
      rw [lines, hheader] at read
      rw [if_pos rfl, List.map_drop, read]
      rfl
  have skips : (written.selection choice).skipsBlanks = true := rfl
  have found := Selection.mapM_rows skips i rows tabular.readable
  generalize written.text = text at *
  generalize hvalues : (written.records.map fun fields => fields[i]?.bind value?) = values at found
  have result : readColumn (written.selection choice) text =
      .ok ⟨values.filterMap id, values.countP Option.isNone, i⟩ := by
    unfold readColumn
    simp only [dialect, index, bind, Except.bind] at found ⊢
    rw [found]
    rfl
  refine ⟨_, result, rfl, ?_⟩
  dsimp only
  rw [← hvalues, List.filterMap_map, column]
  rfl

/-- The table is stored where there is room for it, it has its data records behind its header, and
`columns` are the numbers that are read of its columns. -/
structure ReadsBack (written : Written) (columns : List (List Float)) : Prop where
  stored : ∀ capacity, written.text.length ≤ capacity → written.storeWithin capacity = .ok ()
  records : (written.format.dialect.records written.text).length =
    written.rows + if written.format.header then 1 else 0
  width : columns.length = written.header.length
  read : ∀ i values, columns[i]? = some values → ∀ choice, written.Chooses i choice →
    ∃ column, readColumn (written.selection choice) written.text = .ok column ∧
      column.index = i ∧ column.values = values

/-- A table of titles and numbers is read back column by column. -/
theorem Tabular.readsBack (tabular : written.Tabular)
    (distinct : written.format.dialect.Distinct) :
    written.ReadsBack ((List.range written.header.length).map written.column) where
  stored capacity := (written.storeWithin_eq_ok_iff capacity).2
  records := by
    have read := congrArg List.length (tabular.map_fields_records distinct)
    rw [List.length_map, List.length_map, lines] at read
    rw [read, rows]
    split <;> rfl
  width := by rw [List.length_map, List.length_range]
  read i values found choice chosen := by
    obtain ⟨h, rfl⟩ := List.getElem?_eq_some_iff.1 found
    rw [List.getElem_map, List.getElem_range]
    exact tabular.readColumn_eq distinct chosen

end Written

/-! ## Tables -/

def Format.record (format : Format) (labels : List Nat) (numbers : List Float) : List String :=
  labels.map toString ++ numbers.map format.field

/-- The points of some segments, each with the number of its segment. -/
def numbered (segments : List (List (Float × Float))) : List (Nat × Float × Float) :=
  segments.zipIdx.flatMap fun (segment, index) => segment.map (index, ·)

section Tables
variable {α : Type} {format : Format}

/-- The records of the rows that are written. -/
theorem filterMap_fields? (format : Format) (labels : α → List Nat) (numbers : α → List Float)
    (rows : List α) :
    rows.filterMap (fun row =>
        (format.fields? (numbers row)).map ((labels row).map toString ++ ·)) =
      (rows.filter fun row => format.nonFinite.keeps (numbers row)).map fun row =>
        format.record (labels row) (numbers row) := by
  have record (row : α) : (format.fields? (numbers row)).map ((labels row).map toString ++ ·) =
      if format.nonFinite.keeps (numbers row) then
        (some ∘ fun row => format.record (labels row) (numbers row)) row
      else none := by
    rw [fields?_eq]
    split <;> rfl
  simp only [record]
  rw [← List.filterMap_filter, List.filterMap_eq_map]

theorem records_ofValues (format : Format) (values : List Float) :
    (Written.ofValues format values).records =
      (values.filter fun value => format.nonFinite.keeps [value]).map fun value =>
        format.record [] [value] := by
  rw [← filterMap_fields? format (fun _ => []) fun value => [value]]
  simp only [List.map_nil, List.nil_append, Option.map_id']
  rfl

theorem records_ofPoints (format : Format) (points : List (Float × Float)) :
    (Written.ofPoints format points).records =
      (points.filter fun (x, y) => format.nonFinite.keeps [x, y]).map fun (x, y) =>
        format.record [] [x, y] := by
  have records := filterMap_fields? format (fun _ => []) (fun (x, y) => [x, y]) points
  simp only [List.map_nil, List.nil_append, Option.map_id'] at records
  exact records

theorem records_ofSegments (format : Format) (segments : List (List (Float × Float))) :
    (Written.ofSegments format segments).records =
      ((numbered segments).filter fun (_, x, y) => format.nonFinite.keeps [x, y]).map
        fun (index, x, y) => format.record [index] [x, y] := by
  have records := filterMap_fields? format (fun (index, _, _) => [index]) (fun (_, x, y) => [x, y])
    (numbered segments)
  rw [numbered, List.filterMap_flatMap] at records
  simp only [List.filterMap_map] at records
  exact records

theorem readable_record (shortest : format.places = none) {labels : List Nat}
    {numbers : List Float} : ∀ field ∈ format.record labels numbers, Readable field := by
  intro field hf
  rcases List.mem_append.1 hf with hf | hf
  · obtain ⟨n, -, rfl⟩ := List.mem_map.1 hf
    exact readable_toString n
  · obtain ⟨x, -, rfl⟩ := List.mem_map.1 hf
    exact readable_field shortest x

/-- A table is tabular if its records are made of numbers. -/
theorem tabular_of_records {written : Written} (shortest : written.format.places = none)
    (titles : Titles written.header)
    (records : ∀ fields ∈ written.records, ∃ labels number numbers,
      fields = written.format.record labels (number :: numbers)) : written.Tabular where
  titles := titles
  nonempty fields hf := by
    obtain ⟨labels, number, numbers, rfl⟩ := records fields hf
    exact List.append_ne_nil_of_right_ne_nil _ (List.cons_ne_nil _ _)
  readable fields hf := by
    obtain ⟨labels, number, numbers, rfl⟩ := records fields hf
    exact readable_record shortest

/-- Tables of values in their shortest form can be read back. -/
theorem tabular_ofValues (shortest : format.places = none) (values : List Float) :
    (Written.ofValues format values).Tabular := by
  have titles : Titles ["value"] := by decide
  refine tabular_of_records shortest titles ?_
  rw [records_ofValues, List.forall_mem_map]
  exact fun value _ => ⟨_, _, _, rfl⟩

/-- Tables of points in their shortest form can be read back. -/
theorem tabular_ofPoints (shortest : format.places = none) (points : List (Float × Float)) :
    (Written.ofPoints format points).Tabular := by
  have titles : Titles ["x", "y"] := by decide
  refine tabular_of_records shortest titles ?_
  rw [records_ofPoints, List.forall_mem_map]
  exact fun point _ => ⟨_, _, _, rfl⟩

/-- Tables of segments in their shortest form can be read back. -/
theorem tabular_ofSegments (shortest : format.places = none)
    (segments : List (List (Float × Float))) : (Written.ofSegments format segments).Tabular := by
  have titles : Titles ["segment", "x", "y"] := by decide
  refine tabular_of_records shortest titles ?_
  rw [records_ofSegments, List.forall_mem_map]
  exact fun row _ => ⟨_, _, _, rfl⟩

theorem column_of_records {written : Written} {rows : List α} {fields : α → List String}
    (records : written.records = rows.map fields) (i : Nat) (field : α → String)
    (place : ∀ row, (fields row)[i]? = some (field row)) :
    written.column i = rows.filterMap fun row => value? (field row) := by
  rw [Written.column, records, List.filterMap_map]
  refine List.filterMap_congr fun row _ => ?_
  rw [Function.comp_apply, place, Option.bind_some]

/-- The numbers of a column are those of its fields that are not blank. -/
theorem filterMap_value? (shortest : format.places = none) (number : α → Float) (rows : List α) :
    rows.filterMap (fun row => value? (format.field (number row))) =
      (rows.map number).filter format.nonFinite.shows := by
  simp only [value?_field shortest]
  rw [← List.filterMap_eq_filter, List.filterMap_map]
  rfl

theorem filterMap_value?_toString (label : α → Nat) (rows : List α) :
    rows.filterMap (fun row => value? (toString (label row))) =
      rows.map fun row => Float.ofNat (label row) := by
  simp only [value?, Number.read?_toString]
  exact congrFun List.filterMap_eq_map' rows

/-- A table that is written with the fewest digits is read back, whatever its dialect: every number
of the rows that are not left out, except those that are left blank. The first column of segments
holds the number of the segment that a row comes from. -/
theorem readColumn_written (shortest : format.places = none) (distinct : format.dialect.Distinct) :
    (∀ values : List Float,
      let rows := values.filter fun value => format.nonFinite.keeps [value]
      (Written.ofValues format values).ReadsBack [rows.filter format.nonFinite.shows]) ∧
    (∀ points : List (Float × Float),
      let rows := points.filter fun (x, y) => format.nonFinite.keeps [x, y]
      (Written.ofPoints format points).ReadsBack
        [(rows.map fun (x, _) => x).filter format.nonFinite.shows,
          (rows.map fun (_, y) => y).filter format.nonFinite.shows]) ∧
    ∀ segments : List (List (Float × Float)),
      let rows := (numbered segments).filter fun (_, x, y) => format.nonFinite.keeps [x, y]
      (Written.ofSegments format segments).ReadsBack
        [rows.map fun (index, _, _) => Float.ofNat index,
          (rows.map fun (_, x, _) => x).filter format.nonFinite.shows,
          (rows.map fun (_, _, y) => y).filter format.nonFinite.shows] := by
  refine ⟨fun values => ?_, fun points => ?_, fun segments => ?_⟩
  · intro rows
    have records := records_ofValues format values
    have first := column_of_records records 0 format.field fun _ => rfl
    have back := (tabular_ofValues shortest values).readsBack distinct
    rw [filterMap_value? shortest, List.map_id'] at first
    rw [← first]
    exact back
  · intro rows
    have records := records_ofPoints format points
    have first := column_of_records records 0 (fun (x, _) => format.field x) fun _ => rfl
    have second := column_of_records records 1 (fun (_, y) => format.field y) fun _ => rfl
    have back := (tabular_ofPoints shortest points).readsBack distinct
    rw [filterMap_value? shortest] at first second
    rw [← first, ← second]
    exact back
  · intro rows
    have records := records_ofSegments format segments
    have first := column_of_records records 0 (fun (index, _) => toString index) fun _ => rfl
    have second := column_of_records records 1 (fun (_, x, _) => format.field x) fun _ => rfl
    have third := column_of_records records 2 (fun (_, _, y) => format.field y) fun _ => rfl
    have back := (tabular_ofSegments shortest segments).readsBack distinct
    rw [filterMap_value?_toString] at first
    rw [filterMap_value? shortest] at second third
    rw [← first, ← second, ← third]
    exact back

/-- Numbers are read back although the point and the minus structure the text. -/
theorem readColumn_written_point_and_minus :
    let format : Format :=
      { dialect := ⟨'.'.toUInt8, '-'.toUInt8⟩, lineEnd := .cr, nonFinite := .blank }
    format.places = none ∧ format.dialect.Distinct ∧
      (Written.ofPoints format [(1.5, 0.0 / 0.0), (-2.5, -0.0)]).ReadsBack
        [[1.5, -2.5], [-0.0]] := by
  intro format
  have shortest : format.places = none := rfl
  have distinct : format.dialect.Distinct := ⟨by decide, rfl, rfl⟩
  have back := (readColumn_written shortest distinct).2.1 [(1.5, 0.0 / 0.0), (-2.5, -0.0)]
  have second : [(0.0 / 0.0 : Float), -0.0].filter Float.isFinite = [-0.0] := by decide
  have first : [(1.5 : Float), -2.5].filter Float.isFinite = [1.5, -2.5] := by decide
  refine ⟨shortest, distinct, ?_⟩
  rw [← second, ← first]
  exact back

end Tables

end Curves.Csv
