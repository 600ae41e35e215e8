import Curves.Proofs.Expr.Accounting
import Curves.Proofs.Expr.Trace

/-!
# Halting

A factor that is nested too deep halts the parser. That is the last thing reported, the parser stays
where it is, and whatever it is asked to read from then on is missing.

How deep factors nest is said by the room that is left for them. A parser that counts the open
factors in place of that raises its counter before a factor and lowers it behind it. Its readings
are the same, it returns from each construct with the counter as it was, and the counter does not
pass its limit.

Main statements:

* `Run.ends`: what a run reports of limits;
* `Construct.read_of_halted`: a halted parser reads nothing;
* `Construct.counted`: the counter of open factors;
* `ofSource_halts`: sources.
-/

namespace Curves
open Grammar

namespace Parser
open Cursor

/-! ## Reports of limits -/

/-- A reading comes to its end without reporting a limit, or it is halted where it has reported one
as the last thing. -/
inductive Ends (p : Parsed Expr) : Prop
  | going : p.after.halted = false → reported .limitExceeded p.issues = 0 → Ends p
  | halted (before : List Diagnostic) : p.after.halted → reported .limitExceeded before = 0 →
      p.issues = before ++ [Anomaly.tooDeep.diagnostic p.after.position] → Ends p

section Ends
variable {p q : Parsed Expr}

/-- A reading that goes on has reported no limit. -/
theorem Ends.clean (h : Ends p) (going : p.after.halted = false) :
    reported .limitExceeded p.issues = 0 := by
  cases h with
  | going _ clean => exact clean
  | halted _ halted => simp [going] at halted

/-- Other reports may stand before those of a reading. -/
theorem Ends.behind (h : Ends q) (issues : List Diagnostic)
    (clean : reported .limitExceeded issues = 0) (after : p.after = q.after)
    (same : p.issues = issues ++ q.issues) : Ends p := by
  cases h with
  | going going none => exact .going (after ▸ going) (by simp [same, clean, none])
  | halted before halted none last =>
    exact .halted (issues ++ before) (after ▸ halted) (by simp [clean, none])
      (by rw [same, last, after, List.append_assoc])

theorem Ends.closed (h : Ends p) (opening : Nat) : Ends (p.closed opening) := by
  rcases closed_cases opening p with ⟨s, found, eq⟩ | ⟨-, eq⟩ | ⟨going, eq⟩ <;> rw [eq]
  · exact .going found.2 (h.clean found.2)
  · exact h
  · exact .going going (by simp [h.clean going, Anomaly.kind])

theorem Leaf.ends {c : Cursor} (leaf : Leaf c p) : Ends p := by
  cases leaf with
  | number h =>
    refine .going (by rw [after_number]; exact h.2) ?_
    unfold Parser.number
    dsimp only
    split <;> rfl
  | var h | euler h | circle h | name h | unexpected h | «end» h => exact .going h.2 rfl

/-- A run reports a limit where it is halted, as the last thing. -/
theorem Run.ends {room n : Nat} {k : Stage} {c : Cursor} (run : Run room k n c p) : Ends p := by
  induction run with
  | tooDeep => exact .halted [] rfl rfl rfl
  | leaf leaf => exact leaf.ends
  | plus _ _ ih | first _ ih | complete _ _ ih => exact ih
  | negate _ _ ih => exact ih.behind [] rfl rfl rfl
  | group _ _ ih => exact ih.closed _
  | call _ _ _ _ _ ih => exact (ih.closed _).behind [] rfl rfl rfl
  | unknownCall _ _ _ _ ih => exact (ih.closed _).behind [_] rfl rfl rfl
  | square _ h ih | cube _ h ih => exact .going h.2 (by simp [Parsed.join, ih.clean h.2])
  | operation _ h _ left right => exact right.behind _ (left.clean h.going) rfl rfl

end Ends

/-! ## Halted parsers -/

section Halted
variable {c : Cursor}

theorem factor_of_halted (room : Nat) (halted : c.halted) :
    factor room c = { value := .missing, after := c } := by
  cases room <;> simp [factor, halted]

/-- A halted parser reads a chain as missing. -/
theorem Chain.read_of_halted (room : Nat) (k : Chain) (halted : c.halted) :
    k.read room c = { value := .missing, after := c } := by
  have stays {k : Chain} (operand : k.readOperand room c = { value := .missing, after := c }) :
      k.read room c = { value := .missing, after := c } := by
    rw [read_eq, operand]
    exact chain_of_none (next?_of_halted halted)
  have power : Chain.read room .power c = _ := stays (factor_of_halted room halted)
  have term : Chain.read room .term c = _ := stays power
  cases k with
  | power => exact power
  | term => exact term
  | sum => exact stays term

end Halted

end Parser

namespace Grammar.Construct
open Curves.Parser

def read (room : Nat) : Construct → Cursor → Parsed Expr
  | .factor => Parser.factor room
  | .power => Chain.read room .power
  | .term => Chain.read room .term
  | .expression => Chain.read room .sum

/-- A halted parser reads nothing, reports nothing and stays where it is. -/
theorem read_of_halted (k : Construct) (room : Nat) {c : Cursor} (halted : c.halted) :
    k.read room c = { value := .missing, after := c } := by
  cases k with
  | factor => exact factor_of_halted room halted
  | power => exact Chain.read_of_halted room .power halted
  | term => exact Chain.read_of_halted room .term halted
  | expression => exact Chain.read_of_halted room .sum halted

end Grammar.Construct

namespace Parser
open Cursor

/-! ## Counting the open factors -/

/-- What is being read when open factors are counted: a factor before it is counted, or what is read
within a factor that has been counted, or a chain to which links may be added, or a complete one. -/
inductive Site where
  | entry
  | body
  | links (chain : Chain)
  | whole (chain : Chain)

def Chain.site : Chain → Site
  | .power => .entry
  | .term => .whole .power
  | .sum => .whole .term

/-- `Counted site d c p e levels` says that a parser that counts open factors and has counted `d` of
them at `c` reads `p` and returns with its counter at `e`. Meanwhile the counter takes the values
`levels`. -/
inductive Counted : Site → (d : Nat) → Cursor → Parsed Expr → (e : Nat) → (levels : List Nat) → Prop
  | halted {d c} : c.halted → Counted .entry d c { value := .missing, after := c } d []
  | tooDeep {d c} : c.halted = false → maxDepth ≤ d → Counted .entry d c
      { Parsed.absent .tooDeep c with after := { c with halted := true } } d []
  | enter {d c p e levels} : c.halted = false → d < maxDepth → Counted .body (d + 1) c p e levels →
      Counted .entry d c p (e - 1) ((d + 1) :: (levels ++ [e - 1]))
  | missing {d c s anomaly} : c.At s → Begins s (.missing anomaly) →
      Counted .body d c (.absent anomaly c) d []
  | word {d c s text value anomaly} : c.At s → Begins s (.word text value anomaly) →
      Counted .body d c (.ofWord text value anomaly c) d []
  | plus {d c s p e levels} : c.At ('+' :: s) → Counted .entry d (c.advance 1) p e levels →
      Counted .body d c p e levels
  | negate {d c s p e levels} : c.At ('-' :: s) → Counted .entry d (c.advance 1) p e levels →
      Counted .body d c (p.map .negate) e levels
  | group {d c s name p e levels} : c.At s → Begins s (.opening name) →
      Counted (.whole .sum) d (c.advance (name.length + 1)) p e levels →
      Counted .body d c ((p.closed (c.position + name.length)).argumentOf name c.position) e levels
  | first {k d c p e levels} : Counted (Chain.site k) d c p e levels →
      Counted (.links k) d c p e levels
  | square {d c s p e levels} : Counted (.links .power) d c p e levels → p.after.At ('²' :: s) →
      Counted (.links .power) d c (p.join { value := .square, after := p.after.advance 1 }) e levels
  | cube {d c s p e levels} : Counted (.links .power) d c p e levels → p.after.At ('³' :: s) →
      Counted (.links .power) d c (p.join { value := .cube, after := p.after.advance 1 }) e levels
  | operation {k d c p e levels op c' seams q e' levels'} : Counted (.links k) d c p e levels →
      OperatorAt k p.after op c' seams → Counted k.site e c' q e' levels' →
      Counted (.links k) d c
        (p.join { q.map (Link.operation op) with seams := seams ++ q.seams }) e' (levels ++ levels')
  | complete {k d c p e levels} : Counted (.links k) d c p e levels →
      (∀ x ∈ p.after.peek, ¬ k.goesOn x) → Counted (.whole k) d c p e levels

def Stage.site : Stage → Site
  | .factor => .entry
  | .links k => .links k
  | .whole k => .whole k

/-- The stage of a trace that is counted at a site. -/
def Site.stage : Site → Stage
  | .entry | .body => .factor
  | .links k => .links k
  | .whole k => .whole k

/-- The room for factors where `d` of them are open. The one that is being read has been counted in
its body. -/
def Site.room (d : Nat) : Site → Nat
  | .body => maxDepth - d + 1
  | _ => maxDepth - d

section Counted
variable {room d e : Nat} {site : Site} {stage : Stage} {k : Chain} {c c' : Cursor}
  {p : Parsed Expr} {t : List Step} {levels : List Nat}

theorem Chain.stage_site (k : Chain) : k.site.stage = k.operand := by
  cases k <;> rfl

theorem Chain.site_operand (k : Chain) : k.operand.site = k.site := by
  cases k <;> rfl

/-- The room at the operands of a chain is what the open factors leave. -/
theorem Chain.room_site (k : Chain) (d : Nat) : k.site.room d = maxDepth - d := by
  cases k <;> rfl

theorem OperatorAt.going_operand {op : Operator} {seams : List Nat}
    (h : OperatorAt k c op c' seams) : c'.halted = false := by
  cases h with
  | raise h | multiply h | divide h | adjacent h | add h | subtract h => exact h.2

/-- A trace is counted, and behind it the counter is as it was. -/
theorem Trace.counted (trace : Trace room stage c p t) (full : room + d = maxDepth) :
    ∃ levels, Counted stage.site d c p d levels := by
  induction trace generalizing d with
  | tooDeep going => exact ⟨_, .tooDeep going (by omega)⟩
  | missing h begins => exact ⟨_, .enter h.2 (by omega) (.missing h begins)⟩
  | word h begins => exact ⟨_, .enter h.2 (by omega) (.word h begins)⟩
  | plus h _ ih =>
    obtain ⟨levels, inner⟩ := ih (d := d + 1) (by omega)
    exact ⟨_, .enter h.2 (by omega) (.plus h inner)⟩
  | negate h _ ih =>
    obtain ⟨levels, inner⟩ := ih (d := d + 1) (by omega)
    exact ⟨_, .enter h.2 (by omega) (.negate h inner)⟩
  | group h begins _ ih =>
    obtain ⟨levels, inner⟩ := ih (d := d + 1) (by omega)
    exact ⟨_, .enter h.2 (by omega) (.group h begins inner)⟩
  | @first _ k _ _ _ _ ih =>
    obtain ⟨levels, operand⟩ := ih full
    exact ⟨levels, .first (k.site_operand ▸ operand)⟩
  | square _ h ih =>
    obtain ⟨levels, operand⟩ := ih full
    exact ⟨levels, .square operand h⟩
  | cube _ h ih =>
    obtain ⟨levels, operand⟩ := ih full
    exact ⟨levels, .cube operand h⟩
  | @operation _ k _ _ _ _ _ _ _ _ _ h _ ihl ihr =>
    obtain ⟨levels, left⟩ := ihl full
    obtain ⟨levels', right⟩ := ihr full
    exact ⟨_, .operation left h (k.site_operand ▸ right)⟩
  | complete _ stops ih =>
    obtain ⟨levels, chain⟩ := ih full
    exact ⟨levels, .complete chain stops⟩

/-- A halted parser does not touch its counter. -/
theorem Counted.of_halted (counted : Counted site d c p e levels) (halted : c.halted) :
    p = { value := .missing, after := c } ∧ e = d ∧ levels = [] := by
  have going {c : Cursor} {s : List Char} (h : c.At s) (halted : c.halted) : False := by
    simp [h.2] at halted
  induction counted with
  | halted => exact ⟨rfl, rfl, rfl⟩
  | tooDeep going | enter going => simp [going] at halted
  | missing h | word h | plus h | negate h | group h => exact (going h halted).elim
  | first _ ih | complete _ _ ih => exact ih halted
  | square _ h ih | cube _ h ih =>
    obtain ⟨rfl, -⟩ := ih halted
    exact (going h halted).elim
  | operation _ h _ ih =>
    obtain ⟨rfl, -⟩ := ih halted
    have := h.going
    simp [halted] at this

/-- Where open factors are counted, the counter returns to what it was and stays within its limit,
and what is read has a trace. -/
theorem Counted.restored (counted : Counted site d c p e levels) (within : d ≤ maxDepth)
    (going : c.halted = false) :
    e = d ∧ (∀ n ∈ levels, n ≤ maxDepth) ∧ ∃ t, Trace (site.room d) site.stage c p t := by
  induction counted with
  | halted halted => simp [going] at halted
  | @tooDeep d c _ deep =>
    have full : Site.room d .entry = 0 := Nat.sub_eq_zero_of_le deep
    exact ⟨rfl, by simp, [], full ▸ .tooDeep going⟩
  | @enter d _ _ _ _ _ room _ ih =>
    obtain ⟨rfl, levels, t, trace⟩ := ih room going
    have opened : maxDepth - (d + 1) + 1 = maxDepth - d := by omega
    refine ⟨rfl, ?_, t, by rwa [Site.room, opened] at trace⟩
    simp only [List.mem_cons, List.mem_append, List.not_mem_nil, or_false]
    rintro n (rfl | inside | rfl)
    · exact room
    · exact levels n inside
    · exact within
  | missing h begins => exact ⟨rfl, by simp, _, .missing h begins⟩
  | word h begins => exact ⟨rfl, by simp, _, .word h begins⟩
  | plus h _ ih =>
    obtain ⟨same, levels, t, trace⟩ := ih within going
    exact ⟨same, levels, _, .plus h trace⟩
  | negate h _ ih =>
    obtain ⟨same, levels, t, trace⟩ := ih within going
    exact ⟨same, levels, _, .negate h trace⟩
  | group h begins _ ih =>
    obtain ⟨same, levels, t, trace⟩ := ih within going
    exact ⟨same, levels, _, .group h begins trace⟩
  | @first k d _ _ _ _ _ ih =>
    obtain ⟨same, levels, t, trace⟩ := ih within going
    rw [k.room_site, k.stage_site] at trace
    exact ⟨same, levels, t, .first trace⟩
  | square _ h ih =>
    obtain ⟨same, levels, t, trace⟩ := ih within going
    exact ⟨same, levels, _, .square trace h⟩
  | cube _ h ih =>
    obtain ⟨same, levels, t, trace⟩ := ih within going
    exact ⟨same, levels, _, .cube trace h⟩
  | @operation k d _ _ _ _ _ _ _ _ _ _ _ h _ ihl ihr =>
    obtain ⟨rfl, levels, t, left⟩ := ihl within going
    obtain ⟨same, levels', u, right⟩ := ihr within h.going_operand
    rw [k.room_site, k.stage_site] at right
    refine ⟨same, fun n inside => ?_, _, .operation left h right⟩
    exact (List.mem_append.1 inside).elim (levels n) (levels' n)
  | complete _ stops ih =>
    obtain ⟨same, levels, t, trace⟩ := ih within going
    exact ⟨same, levels, t, .complete trace stops⟩

end Counted

end Parser

namespace Grammar.Construct
open Curves.Parser

def site : Construct → Site
  | .factor => .entry
  | .power => .whole .power
  | .term => .whole .term
  | .expression => .whole .sum

variable (k : Construct) (c : Cursor) {d : Nat}

/-- A halted parser leaves its counter as it is. -/
theorem exists_counted_of_halted (d : Nat) (halted : c.halted) :
    Counted k.site d c { value := .missing, after := c } d [] := by
  have stops {k : Chain} : ∀ x ∈ c.peek, ¬ k.goesOn x := by simp [Cursor.peek, halted]
  have factor : Counted .entry d c { value := .missing, after := c } d [] := .halted halted
  have power : Counted (.whole .power) d c { value := .missing, after := c } d [] :=
    .complete (.first factor) stops
  have term : Counted (.whole .term) d c { value := .missing, after := c } d [] :=
    .complete (.first power) stops
  cases k with
  | factor => exact factor
  | power => exact power
  | term => exact term
  | expression => exact .complete (.first term) stops

theorem exists_trace (room : Nat) (going : c.halted = false) :
    ∃ t, Trace room k.site.stage c (k.read room c) t := by
  have factors := factor_exists_trace room
  cases k with
  | factor => exact factors c going
  | power => exact Chain.exists_trace factors .power c going
  | term => exact Chain.exists_trace factors .term c going
  | expression => exact Chain.exists_trace factors .sum c going

/-- A parser that counts open factors, `d` of which are open, reads a construct like one that has
the room that is left. It returns with the same count, and its counter stays within the limit. -/
theorem counted (within : d ≤ maxDepth) :
    (∃ levels, Counted k.site d c (k.read (maxDepth - d) c) d levels) ∧
      ∀ p e levels, Counted k.site d c p e levels →
        p = k.read (maxDepth - d) c ∧ e = d ∧ ∀ n ∈ levels, n ≤ maxDepth := by
  cases halted : c.halted with
  | true =>
    rw [k.read_of_halted _ halted]
    refine ⟨⟨_, k.exists_counted_of_halted c d halted⟩, fun p e levels counted => ?_⟩
    obtain ⟨rfl, rfl, rfl⟩ := counted.of_halted halted
    exact ⟨rfl, rfl, by simp⟩
  | false =>
    constructor
    · obtain ⟨t, trace⟩ := k.exists_trace c (maxDepth - d) halted
      have counted := trace.counted (d := d) (by omega)
      cases k <;> exact counted
    · intro p e levels counted
      obtain ⟨rfl, levels, t, trace⟩ := counted.restored within halted
      have reads := trace.sound.2
      refine ⟨?_, rfl, levels⟩
      cases k <;> exact Eq.symm reads

end Grammar.Construct

/-! ## Sources -/

section Sources
open Curves.Parser

theorem reported_pos_of_mem {d : Diagnostic} {issues : List Diagnostic} {kind : Diagnostic.Kind}
    (mem : d ∈ issues) (same : d.kind = kind) : 0 < reported kind issues :=
  List.countP_pos_iff.2 ⟨d, mem, by simp [same]⟩

/-- A limit is reported once at most, and as the last thing. The parser stays where it is reported,
and a source that is too long is not read at all. -/
theorem parse_limit (s : List Char) : reported .limitExceeded (parse s).diagnostics ≤ 1 ∧
    ∀ d ∈ (parse s).diagnostics, d.kind = .limitExceeded →
      (parse s).diagnostics.getLast? = some d ∧
        (parse s).consumed = if s.length ≤ maxLength then d.position else 0 := by
  by_cases nonempty : s = []
  · subst s
    refine ⟨Nat.zero_le _, fun d mem limit => ?_⟩
    rw [List.mem_singleton.1 mem] at limit
    cases limit
  by_cases short : s.length ≤ maxLength
  · obtain ⟨t, trace⟩ := exists_trace s
    obtain ⟨n, run⟩ := trace.exists_run
    rw [parse_of_trace trace nonempty short]
    simp only [if_pos short]
    generalize expression (factor maxDepth) (.start s) = p at run
    cases run.ends with
    | going going clean =>
      have none : reported .limitExceeded (p.issues ++ trailing p) = 0 := by
        rw [reported_append, clean, trailing]
        split <;> rfl
      refine ⟨by omega, fun d mem limit => ?_⟩
      exact absurd none (Nat.ne_of_gt (reported_pos_of_mem mem limit))
    | @halted before halted clean last =>
      have nothing : trailing p = [] := if_pos (by simp [halted])
      rw [nothing, List.append_nil, last]
      refine ⟨by simp [clean, Anomaly.kind], fun d mem limit => ?_⟩
      rcases List.mem_append.1 mem with earlier | here
      · exact absurd clean (Nat.ne_of_gt (reported_pos_of_mem earlier limit))
      · rw [List.mem_singleton.1 here]
        exact ⟨List.getLast?_concat, rfl⟩
  · have long := Nat.not_le.1 short
    rw [parse_of_long long]
    simp only [if_neg short]
    refine ⟨Nat.le_refl 1, fun d mem _ => ?_⟩
    rw [List.mem_singleton.1 mem]
    exact ⟨rfl, trivial⟩

/-- Exceeding a limit ends everything. It is reported once at most and as the last thing, the
formula counts as zero, and the parser stays where it is: once it is halted, whatever it is asked to
read is missing. A parser that counts the open factors reads all constructs alike, returns from each
with the same count and never counts more than `maxDepth`. -/
theorem ofSource_halts (source : String) (conventions : Conventions) :
    let f := Formula.ofSource source conventions
    (reported .limitExceeded f.diagnostics ≤ 1 ∧
      ∀ d ∈ f.diagnostics, d.kind = .limitExceeded →
        f.diagnostics.getLast? = some d ∧ f.hasError ∧ (parse f.source.toList).consumed =
          if f.source.length ≤ maxLength then d.position else 0) ∧
    (∀ (k : Construct) (room : Nat) (c : Cursor), c.halted →
      k.read room c = { value := .missing, after := c }) ∧
    ∀ (k : Construct) (c : Cursor) (d : Nat), d ≤ maxDepth →
      (∃ levels, Counted k.site d c (k.read (maxDepth - d) c) d levels) ∧
        ∀ p e levels, Counted k.site d c p e levels →
          p = k.read (maxDepth - d) c ∧ e = d ∧ ∀ n ∈ levels, n ≤ maxDepth := by
  intro f
  have text : f.source.toList = normalizeChars source.toList := String.toList_ofList
  have length : f.source.length = (normalizeChars source.toList).length := String.length_ofList
  obtain ⟨once, last⟩ := parse_limit (normalizeChars source.toList)
  refine ⟨⟨once, fun d mem limit => ?_⟩, fun k room c => k.read_of_halted room,
    fun k c d => k.counted c⟩
  obtain ⟨final, stays⟩ := last d mem limit
  refine ⟨final, List.any_eq_true.2 ⟨d, mem, ?_⟩, by rw [text, length, stays]⟩
  rw [Diagnostic.isError, limit]
  rfl

/-- Of 129 parentheses the last one is a factor too deep. The places before it are not reported as
open, and the parser stays in front of it, halted and with its counter at the limit. -/
theorem ofSource_halts_parentheses :
    let f := Formula.ofSource (String.ofList (List.replicate 129 '('))
    let d := Anomaly.tooDeep.diagnostic 128
    let c : Cursor := { position := 128, rest := ['('], halted := true }
    d ∈ f.diagnostics ∧ reported .limitExceeded f.diagnostics ≤ 1 ∧
      f.diagnostics.getLast? = some d ∧ f.hasError ∧ (parse f.source.toList).consumed = 128 ∧
      Construct.expression.read 1 c = { value := .missing, after := c } ∧
      ∀ p e levels, Counted Construct.factor.site 128 (.start ['(']) p e levels → e = 128 := by
  intro f d c
  have mem : d ∈ f.diagnostics := by decide +kernel
  obtain ⟨⟨once, last⟩, halted, counted⟩ :=
    ofSource_halts (String.ofList (List.replicate 129 '(')) {}
  obtain ⟨final, error, stays⟩ := last d mem rfl
  rw [if_pos (by decide +kernel)] at stays
  obtain ⟨-, same⟩ := counted .factor (.start ['(']) 128 (Nat.le_refl _)
  exact ⟨mem, once, final, error, stays, halted .expression 1 c rfl,
    fun p e levels h => (same p e levels h).2.1⟩

end Sources

end Curves
