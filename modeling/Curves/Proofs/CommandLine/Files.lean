import Curves.CommandLine.FileTree
import Curves.CommandLine.Run
import Curves.Proofs.CommandLine.Reading
import Mathlib.Data.List.Infix
import Mathlib.Tactic.SplitIfs

/-!
# Commands on a tree of files

A file is made in a directory only, so writing adds no directory and takes none away, and every path
leads where it led before. So the file that a path names is the one that is read afterwards, and the
others keep their content. A command leaves the tree as it is, or it succeeds and its table is in
the file that it was told to make.

Main statements:

* `FileTree.sameDirectories_write`: what writing keeps;
* `FileTree.read_write`, `FileTree.read_write_of_apart`: what is read after writing;
* `Command.run_delivers`, `Command.run_cases`: what a command does to the tree;
* `Invocation.run_output`, `Invocation.run_failed`: what is in the tree after success and failure;
* `Invocation.runs_keep`: what any number of invocations leaves alone.
-/

namespace Curves.CommandLine

namespace FileTree

variable {tree other : FileTree} {place directory : Place} {path name : String}
variable {content text : List UInt8}

/-! ## Directories -/

theorem isDirectory_iff : tree.isDirectory place ↔
    place <:+ tree.here ∨ ∃ file ∈ tree.files, place <:+ file.1.tail := by
  simp [isDirectory]

theorem isDirectory_here (tree : FileTree) : tree.isDirectory tree.here :=
  isDirectory_iff.2 (.inl (List.suffix_refl _))

/-- What holds a directory is one. -/
theorem isDirectory_of_suffix (h : tree.isDirectory directory) (suffix : place <:+ directory) :
    tree.isDirectory place := by
  rw [isDirectory_iff] at h ⊢
  apply h.imp
  · exact suffix.trans
  · rintro ⟨file, mem, below⟩
    exact ⟨file, mem, suffix.trans below⟩

/-- Whether another tree has the same directories, so that paths lead to the same places. -/
structure SameDirectories (tree other : FileTree) : Prop where
  here : other.here = tree.here
  isDirectory (place : Place) : other.isDirectory place ↔ tree.isDirectory place

theorem SameDirectories.refl (tree : FileTree) : tree.SameDirectories tree where
  here := rfl
  isDirectory _ := Iff.rfl

theorem SameDirectories.trans {third : FileTree} (first : tree.SameDirectories other)
    (second : other.SameDirectories third) : tree.SameDirectories third where
  here := second.here.trans first.here
  isDirectory place := (second.isDirectory place).trans (first.isDirectory place)

/-- A file that is made in a directory adds none. The directory is still one if the file was its
only one. -/
theorem sameDirectories_set (h : tree.isDirectory directory) (name : String)
    (content : List UInt8) : tree.SameDirectories (tree.set (name :: directory) content) where
  here := rfl
  isDirectory place := by
    constructor
    · intro found
      rcases isDirectory_iff.1 found with here | ⟨file, mem, below⟩
      · exact isDirectory_iff.2 (.inl here)
      · rcases List.mem_cons.1 mem with rfl | mem
        · exact isDirectory_of_suffix h below
        · exact isDirectory_iff.2 (.inr ⟨file, List.mem_of_mem_filter mem, below⟩)
    · intro found
      rcases isDirectory_iff.1 found with here | ⟨file, mem, below⟩
      · exact isDirectory_iff.2 (.inl here)
      · apply isDirectory_iff.2
        by_cases replaced : file.1 = name :: directory
        · rw [replaced] at below
          exact .inr ⟨_, List.mem_cons_self, below⟩
        · refine .inr ⟨file, List.mem_cons_of_mem _ (List.mem_filter.2 ⟨mem, ?_⟩), below⟩
          simpa using replaced

/-! ## Paths -/

/-- The names that lead from a directory to another one: `.`, `..` and those of directories in it.
-/
theorem enter_eq_ok_iff : tree.enter directory name = .ok place ↔
    name = "." ∧ directory = place ∨ name = ".." ∧ directory.tail = place ∨
      name ≠ "." ∧ name ≠ ".." ∧ name.utf8ByteSize ≤ maxNameLength ∧
        tree.isDirectory (name :: directory) ∧ name :: directory = place := by
  unfold enter
  split_ifs with dot dots long known <;> grind

theorem isDirectory_enter (h : tree.isDirectory directory)
    (entered : tree.enter directory name = .ok place) : tree.isDirectory place := by
  rcases enter_eq_ok_iff.1 entered with ⟨-, rfl⟩ | ⟨-, rfl⟩ | ⟨-, -, -, known, rfl⟩
  · exact h
  · exact isDirectory_of_suffix h (List.tail_suffix _)
  · exact known

/-- Only directories are passed on the way along a path. -/
theorem isDirectory_foldlM_enter {names : List String} (h : tree.isDirectory directory)
    (entered : names.foldlM tree.enter directory = .ok place) : tree.isDirectory place := by
  induction names generalizing directory with
  | nil =>
    obtain rfl := Except.ok.inj entered
    exact h
  | cons name names ih =>
    rw [List.foldlM_cons] at entered
    obtain ⟨next, first, rest⟩ := bind_eq_ok_iff.1 entered
    exact ih (isDirectory_enter h first) rest

/-- Names lead to the same places in trees with the same directories. -/
theorem SameDirectories.foldlM_enter_iff (same : tree.SameDirectories other) {names : List String} :
    names.foldlM other.enter directory = .ok place ↔
      names.foldlM tree.enter directory = .ok place := by
  induction names generalizing directory with
  | nil => exact Iff.rfl
  | cons name names ih =>
    rw [List.foldlM_cons, List.foldlM_cons, bind_eq_ok_iff, bind_eq_ok_iff]
    apply exists_congr
    intro next
    rw [ih, enter_eq_ok_iff, enter_eq_ok_iff, same.isDirectory]

def steps (path : String) : List String := (path.splitOn "/").filter (· ≠ "")

def start (tree : FileTree) (path : String) : Place :=
  if (path.splitOn "/").head? = some "" then [] else tree.here

/-- What a path stands for in the directory that the names before its last one lead to. -/
def ending (path : String) (directory : Place) : Destination :=
  match (steps path).getLast? with
  | none | some "." | some ".." => .directory
  | some name => .entry directory name ((path.splitOn "/").getLast? = some "")

/-- The path is checked, then its names but the last one are followed. -/
theorem resolve_eq (tree : FileTree) (path : String) : tree.resolve path =
    if path.isEmpty then .error .noFile
    else if maxPathLength < path.utf8ByteSize then .error .nameTooLong
    else ((steps path).dropLast.foldlM tree.enter (tree.start path)).map (ending path) := by
  unfold resolve
  by_cases empty : path.isEmpty
  · rw [if_pos empty, if_pos empty]
    rfl
  rw [if_neg empty, if_neg empty]
  by_cases long : maxPathLength < path.utf8ByteSize
  · rw [if_pos long, if_pos long]
    rfl
  rw [if_neg long, if_neg long]
  change ((steps path).dropLast.foldlM tree.enter (tree.start path)).bind _ = _
  cases (steps path).dropLast.foldlM tree.enter (tree.start path) with
  | error e => rfl
  | ok directory =>
    simp only [Except.bind, Except.map, ending, steps]
    generalize List.getLast? _ = last
    split <;> simp_all [pure, Except.pure]

theorem resolve_eq_ok_iff {destination : Destination} : tree.resolve path = .ok destination ↔
    ¬ path.isEmpty ∧ ¬ maxPathLength < path.utf8ByteSize ∧
      ∃ directory, (steps path).dropLast.foldlM tree.enter (tree.start path) = .ok directory ∧
        ending path directory = destination := by
  rw [resolve_eq]
  split_ifs with empty long <;> simp [*, map_eq_ok_iff]

theorem isDirectory_start (tree : FileTree) (path : String) :
    tree.isDirectory (tree.start path) := by
  unfold start
  split_ifs
  · exact isDirectory_top tree
  · exact isDirectory_here tree

/-- A path leads through directories. -/
theorem isDirectory_of_resolve {slash : Bool}
    (h : tree.resolve path = .ok (.entry directory name slash)) : tree.isDirectory directory := by
  obtain ⟨-, -, reached, entered, ends⟩ := resolve_eq_ok_iff.1 h
  have known := isDirectory_foldlM_enter (isDirectory_start tree path) entered
  unfold ending at ends
  split at ends
  · cases ends
  · cases ends
  · cases ends
  · cases ends
    exact known

/-- A path leads to the same place in trees with the same directories. -/
theorem SameDirectories.resolve_iff (same : tree.SameDirectories other)
    {destination : Destination} :
    other.resolve path = .ok destination ↔ tree.resolve path = .ok destination := by
  have start : other.start path = tree.start path := by rw [start, start, same.here]
  rw [resolve_eq_ok_iff, resolve_eq_ok_iff, start]
  simp only [same.foldlM_enter_iff]

/-! ## Reading and writing -/

/-- Whether a path leads to a place where a file is, or can be made. -/
def Names (tree : FileTree) (path : String) (place : Place) : Prop :=
  ∃ directory name, tree.resolve path = .ok (.entry directory name false) ∧
    name.utf8ByteSize ≤ maxNameLength ∧ ¬ tree.isDirectory (name :: directory) ∧
      name :: directory = place

theorem SameDirectories.names_iff (same : tree.SameDirectories other) :
    other.Names path place ↔ tree.Names path place := by
  unfold Names
  simp only [same.resolve_iff, same.isDirectory]

theorem refuse_eq_ok_iff {ε α β : Type} {c : Prop} [Decidable c] {e : ε} {k : α → Except ε β}
    {x : Except ε β} {b : β} : (if c then throw e >>= k else x) = .ok b ↔ ¬ c ∧ x = .ok b := by
  by_cases h : c
  · rw [if_pos h]
    exact iff_of_false nofun fun both => both.1 h
  · rw [if_neg h, and_iff_right h]

/-- A file is read at the place that the path names. -/
theorem read_eq_ok_iff : tree.read path = .ok content ↔
    ∃ place, tree.Names path place ∧ tree.get? place = some content := by
  unfold read
  rw [bind_eq_ok_iff]
  constructor
  · rintro ⟨destination, resolved, found⟩
    cases destination with
    | directory => cases found
    | entry directory name slash =>
      simp only [refuse_eq_ok_iff] at found
      obtain ⟨short, new, found⟩ := found
      cases file : tree.get? (name :: directory) with
      | none =>
        rw [file] at found
        cases found
      | some text =>
        rw [file] at found
        cases slash with
        | true => cases found
        | false =>
          cases found
          exact ⟨_, ⟨_, _, resolved, not_lt.1 short, new, rfl⟩, file⟩
  · rintro ⟨place, ⟨directory, name, resolved, short, new, rfl⟩, found⟩
    refine ⟨_, resolved, ?_⟩
    simp only [refuse_eq_ok_iff, found]
    exact ⟨short.not_gt, new, rfl⟩

/-- A file is stored at the place that the path names. -/
theorem write_eq_ok_iff {written : FileTree} : tree.write path content = .ok written ↔
    ∃ place, tree.Names path place ∧ tree.set place content = written := by
  unfold write
  rw [bind_eq_ok_iff]
  constructor
  · rintro ⟨destination, resolved, made⟩
    cases destination with
    | directory => cases made
    | entry directory name slash =>
      simp only [refuse_eq_ok_iff] at made
      obtain ⟨slashes, short, new, made⟩ := made
      rw [Bool.not_eq_true] at slashes
      rw [slashes] at resolved
      exact ⟨_, ⟨_, _, resolved, not_lt.1 short, new, rfl⟩, Except.ok.inj made⟩
  · rintro ⟨place, ⟨directory, name, resolved, short, new, rfl⟩, rfl⟩
    refine ⟨_, resolved, ?_⟩
    simp only [refuse_eq_ok_iff]
    exact ⟨Bool.false_ne_true, short.not_gt, new, rfl⟩

/-- Writing changes no directory. -/
theorem sameDirectories_write {written : FileTree} (h : tree.write path content = .ok written) :
    tree.SameDirectories written := by
  obtain ⟨place, ⟨directory, name, resolved, -, -, rfl⟩, rfl⟩ := write_eq_ok_iff.1 h
  exact sameDirectories_set (isDirectory_of_resolve resolved) name content

/-- What is written is read afterwards, by every path that leads to the same place. -/
theorem read_write {written : FileTree} {second : String}
    (h : tree.write path content = .ok written)
    (same : ∀ place, tree.Names path place → tree.Names second place) :
    written.read second = .ok content := by
  have directories := sameDirectories_write h
  obtain ⟨place, names, rfl⟩ := write_eq_ok_iff.1 h
  refine read_eq_ok_iff.2 ⟨place, directories.names_iff.2 (same place names), ?_⟩
  rw [get?_set, if_pos rfl]

/-- Files at other places keep their content, and none is made there. -/
theorem read_write_of_apart {written : FileTree} {elsewhere : String}
    (h : tree.write path content = .ok written)
    (apart : ∀ place, tree.Names path place → ¬ tree.Names elsewhere place) :
    written.read elsewhere = .ok text ↔ tree.read elsewhere = .ok text := by
  have directories := sameDirectories_write h
  obtain ⟨place, names, rfl⟩ := write_eq_ok_iff.1 h
  rw [read_eq_ok_iff, read_eq_ok_iff]
  apply exists_congr
  intro other
  rw [directories.names_iff, get?_set]
  apply and_congr_right
  intro named
  rw [if_neg]
  rintro rfl
  exact apart _ names named

end FileTree

/-! ## Commands -/

/-- The path of the file that a command is to make. -/
def Command.outputPath? : Command → Option String
  | .sample _ _ _ target | .table _ _ target => target.path
  | .eval .. | .check _ => none

/-- The table that a command makes, or why there is none. -/
def Command.table? (conventions : Conventions) :
    Command → Option (Except SamplingProblem (Event × Csv.Written))
  | .sample expression sampling rendering target =>
    some (curveTable (Formula.ofSource expression conventions) sampling rendering target.format)
  | .table expression tabulation target =>
    some (lookupTable (Formula.ofSource expression conventions) tabulation target.format)
  | .eval .. | .check _ => none

/-- What becomes of a text: it is printed, or it is in the file that a path names. If it cannot be
written, the files stay as they are. -/
def Delivers (path? : Option String) (text : List UInt8) (tree : FileTree) (report : Report)
    (after : FileTree) : Prop :=
  match path? with
  | none => report.succeeds ∧ report.output = text ∧ after = tree
  | some path => report.output = [] ∧
    (report.succeeds ∧ tree.write path text = .ok after ∨
      ¬ report.succeeds ∧ (∃ e, tree.write path text = .error e) ∧ after = tree)

/-- What becomes of a table. If there is none, nothing happens. -/
def DeliversTable (path? : Option String) (made : Except SamplingProblem (Event × Csv.Written))
    (tree : FileTree) (report : Report) (after : FileTree) : Prop :=
  match made with
  | .ok (_, written) => Delivers path? written.text tree report after
  | .error _ => ¬ report.succeeds ∧ report.output = [] ∧ after = tree

section Run
variable {tree after : FileTree} {report : Report}

/-- A report tells whether the table was delivered, and the files are as it says. -/
theorem deliver_delivers {path? : Option String} {written : Csv.Written}
    (h : (deliver FileTree.storage path? written).run tree = (report, after)) :
    Delivers path? written.text tree report after := by
  cases path? with
  | none =>
    cases h
    exact ⟨rfl, rfl, rfl⟩
  | some path =>
    simp only [deliver, FileTree.storage, StateT.run, bind, StateT.bind] at h
    cases made : tree.write path written.text with
    | ok tree' =>
      rw [made] at h
      cases h
      exact ⟨rfl, .inl ⟨rfl, made⟩⟩
    | error e =>
      rw [made] at h
      cases h
      exact ⟨rfl, .inr ⟨Bool.false_ne_true, ⟨e, made⟩, rfl⟩⟩

theorem deliverTable_delivers {f : Formula} {target : Target} {what : String}
    {made : Except SamplingProblem (Event × Csv.Written)}
    (h : (deliverTable FileTree.storage f target what made).run tree = (report, after)) :
    DeliversTable target.path made tree report after := by
  cases made with
  | error e =>
    cases h
    exact ⟨Bool.false_ne_true, rfl, rfl⟩
  | ok made =>
    simp only [deliverTable, StateT.run_bind] at h
    cases run : (deliver FileTree.storage target.path made.2).run tree with
    | mk delivered rest =>
      have delivers : Delivers target.path made.2.text tree delivered rest := deliver_delivers run
      rw [run] at h
      cases h
      exact delivers

/-- What a command does: the commands that make no table write no file. -/
theorem Command.run_delivers {conventions : Conventions} {command : Command}
    (h : (command.run FileTree.storage conventions).run tree = (report, after)) :
    match command.table? conventions with
    | some made => DeliversTable command.outputPath? made tree report after
    | none => after = tree := by
  cases command with
  | eval expression xs file =>
    cases file with
    | none =>
      cases h
      rfl
    | some file =>
      simp only [run, FileTree.storage, StateT.run, bind, StateT.bind] at h
      cases read : readValues file (tree.read file.path) <;> rw [read] at h <;> cases h <;> rfl
  | sample => exact deliverTable_delivers h
  | table => exact deliverTable_delivers h
  | check =>
    cases h
    rfl

/-- A command leaves the files as they are, or it succeeds and has written its table. -/
theorem Command.run_cases {conventions : Conventions} {command : Command}
    (h : (command.run FileTree.storage conventions).run tree = (report, after)) :
    after = tree ∨ ∃ path event written, command.outputPath? = some path ∧
      command.table? conventions = some (.ok (event, written)) ∧ report.succeeds ∧
        tree.write path written.text = .ok after := by
  have delivers := run_delivers h
  split at delivers
  case h_2 => exact .inl delivers
  case h_1 made table =>
    cases made with
    | error problem => exact .inl delivers.2.2
    | ok made =>
      cases asked : command.outputPath? with
      | none =>
        rw [asked] at delivers
        exact .inl delivers.2.2
      | some path =>
        rw [asked] at delivers
        rcases delivers.2 with ⟨fine, written⟩ | ⟨-, -, same⟩
        · exact .inr ⟨path, made.1, made.2, rfl, table, fine, written⟩
        · exact .inl same

namespace Invocation
variable {invocation : Invocation}

/-- The file that an invocation makes is another one than the file that a path names. -/
def Spares (invocation : Invocation) (tree : FileTree) (path : String) : Prop :=
  ∀ target, invocation.command.outputPath? = some target →
    ∀ place, tree.Names target place → ¬ tree.Names path place

/-- A failure leaves the files as they are. -/
theorem run_failed (h : (invocation.run FileTree.storage).run tree = (report, after))
    (failed : ¬ report.succeeds) : after = tree := by
  rcases Command.run_cases h with same | ⟨-, -, -, -, -, fine, -⟩
  · exact same
  · exact absurd fine failed

/-- After a success, the file that was asked for contains the table. -/
theorem run_output {path : String}
    (h : (invocation.run FileTree.storage).run tree = (report, after)) (fine : report.succeeds)
    (asked : invocation.command.outputPath? = some path) : ∃ event written,
      invocation.command.table? invocation.options.conventions = some (.ok (event, written)) ∧
        report.output = [] ∧ after.read path = .ok written.text := by
  have delivers := Command.run_delivers h
  split at delivers
  case h_1 made table =>
    cases made with
    | error problem => exact absurd fine delivers.1
    | ok made =>
      rw [asked] at delivers
      obtain ⟨silent, ⟨-, written⟩ | ⟨failed, -⟩⟩ := delivers
      · exact ⟨made.1, made.2, table, silent, FileTree.read_write written fun _ => id⟩
      · exact absurd fine failed
  case h_2 table =>
    cases command : invocation.command <;> rw [command] at asked table <;>
      first | cases asked | cases table

/-- Paths lead where they did, and other files than the one that is asked for keep their content. -/
theorem run_keeps (h : (invocation.run FileTree.storage).run tree = (report, after)) :
    tree.SameDirectories after ∧ ∀ path, invocation.Spares tree path →
      ∀ content, after.read path = .ok content ↔ tree.read path = .ok content := by
  rcases Command.run_cases h with rfl | ⟨target, -, written, asked, -, -, made⟩
  · exact ⟨.refl _, fun _ _ _ => Iff.rfl⟩
  · refine ⟨FileTree.sameDirectories_write made, fun path spared content => ?_⟩
    exact FileTree.read_write_of_apart made (spared target asked)

theorem Spares.of_sameDirectories {path : String} (h : invocation.Spares tree path)
    (same : tree.SameDirectories after) : invocation.Spares after path := by
  intro target asked place names named
  exact h target asked place (same.names_iff.1 names) (same.names_iff.1 named)

/-- Invocations one after the other keep every file that none of them is to make. -/
theorem runs_keep {invocations : List Invocation} {reports : List Report}
    (h : (invocations.mapM (run FileTree.storage)).run tree = (reports, after)) :
    tree.SameDirectories after ∧ ∀ path, (∀ invocation ∈ invocations, invocation.Spares tree path) →
      ∀ content, after.read path = .ok content ↔ tree.read path = .ok content := by
  induction invocations generalizing tree reports with
  | nil =>
    cases h
    exact ⟨.refl _, fun _ _ _ => Iff.rfl⟩
  | cons invocation invocations ih =>
    rw [List.mapM_cons] at h
    simp only [StateT.run_bind] at h
    cases first : (invocation.run FileTree.storage).run tree with
    | mk report between =>
      cases later : (invocations.mapM (run FileTree.storage)).run between with
      | mk rest final =>
        obtain rfl : final = after := by
          rw [first] at h
          simp only [bind, later] at h
          exact congrArg Prod.snd h
        obtain ⟨same, kept⟩ := run_keeps first
        obtain ⟨same', kept'⟩ := ih later
        refine ⟨same.trans same', fun path spared content => ?_⟩
        have here := spared invocation List.mem_cons_self
        have later : ∀ invocation ∈ invocations, invocation.Spares between path := by
          intro invocation mem
          exact (spared invocation (List.mem_cons_of_mem _ mem)).of_sameDirectories same
        exact (kept' path later content).trans (kept path here content)

end Invocation

end Run

end Curves.CommandLine
