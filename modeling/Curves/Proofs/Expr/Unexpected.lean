import Curves.Proofs.Expr.Closing

/-!
# What becomes of unexpected characters

Where no factor is found the parser passes nothing, and the chains that asked for the factor look at
the same character again. Those of terms and powers go on at an operator of theirs, so such an
operator is passed. Every other character ends all chains of the group. Then it is the `)` of that
group, or it ends all groups around and nothing behind it is read.

Main statements:

* `Trace.fate`: what becomes of a character at which a factor is missing;
* `parse_unexpected`: sources.
-/

namespace Curves

def Cursor.PlaceOf (s : List Char) (c : Cursor) : Prop := c.rest = s.drop c.position

section PlaceOf
variable {s w r : List Char} {c d : Cursor} {x : Char}

theorem Cursor.PlaceOf.passes (h : c.PlaceOf s) (passes : c.Passes w d) : d.PlaceOf s := by
  have rest : d.rest = c.rest.drop w.length := by rw [passes.rest, List.drop_left]
  rw [PlaceOf, rest, h, List.drop_drop, passes.position]

theorem Cursor.PlaceOf.advance (h : c.PlaceOf s) (n : Nat) : (c.advance n).PlaceOf s := by
  rw [PlaceOf, rest_advance, h, List.drop_drop]
  rfl

/-- The next character is the one in the source at that place. -/
theorem Cursor.PlaceOf.peek (h : c.PlaceOf s) (going : c.halted = false) :
    c.peek = s[c.position]? := by
  have here : c.At c.rest := ⟨rfl, going⟩
  rw [here.peek, h, List.head?_drop]

theorem Cursor.PlaceOf.getElem? (h : c.PlaceOf s) (next : x ∈ c.peek) :
    s[c.position]? = some x := by
  obtain ⟨r, hc⟩ := At.of_peek next
  rwa [← h.peek hc.2]

end PlaceOf

namespace Parser
open Cursor

/-! ## Groups -/

/-- The groups that are open behind a step, the innermost one first. -/
def Step.groups (groups : List Nat) : Step → List Nat
  | .opens place => place :: groups
  | .closes .. | .abandons _ => groups.tail
  | .passes .. | .misses _ => groups

def openGroups (groups : List Nat) (t : List Step) : List Nat := t.foldl Step.groups groups

/-- Right after a factor was missing at `place`, the innermost open group is closed there. -/
def ClosesGroup (t : List Step) (place : Nat) : Prop :=
  ∃ before opening after, t = before ++ .misses place :: .closes opening place :: after ∧
    (openGroups [] before).head? = some opening

section Groups
variable {room place opening : Nat} {k : Chain} {stage : Stage} {c e : Cursor} {p : Parsed Expr}
  {s : List Char} {t u : List Step} {groups : List Nat}

/-- Groups are followed step by step. -/
theorem openGroups_append :
    openGroups groups (t ++ u) = openGroups (openGroups groups t) u := List.foldl_append

/-- A group that ends is open no more. -/
theorem openGroups_ending (going : c.halted = false) :
    openGroups (opening :: groups) (Step.ending opening c) = groups := by
  unfold Step.ending
  split
  · rfl
  · rw [going]
    rfl

/-- A reading that is not halted leaves the groups open that were open before. -/
theorem Trace.balanced (trace : Trace room stage c p t) (going : p.after.halted = false)
    (groups : List Nat) : openGroups groups t = groups := by
  induction trace generalizing groups with
  | tooDeep => cases going
  | missing | word => rfl
  | plus _ _ ih | negate _ _ ih => exact ih going groups
  | @group _ c _ name p t _ _ _ ih =>
    have going' : p.after.halted = false := by simpa using going
    have content := ih going' ((c.position + name.length) :: groups)
    change openGroups ((c.position + name.length) :: groups) (t ++ _) = groups
    rw [openGroups_append, content, openGroups_ending going']
  | first _ ih | complete _ _ ih => exact ih going groups
  | square _ h ih | cube _ h ih =>
    rw [openGroups_append, ih h.2]
    rfl
  | operation _ operator _ left right =>
    rw [openGroups_append, left operator.going]
    exact right going groups

/-- A group is closed by a `)`. -/
theorem Trace.closes_at (trace : Trace room stage c p t) (text : c.PlaceOf s)
    (mem : .closes opening place ∈ t) : s[place]? = some ')' := by
  induction trace with
  | tooDeep => cases mem
  | missing | word => simp at mem
  | plus _ _ ih | negate _ _ ih => exact ih (text.advance 1) (by simpa using mem)
  | @group _ c _ name p t _ _ content ih =>
    have inner := text.advance (name.length + 1)
    have found : .closes opening place ∈ t ∨
        .closes opening place ∈ Step.ending (c.position + name.length) p.after := by
      simpa using mem
    rcases found with found | found
    · exact ih inner found
    obtain ⟨w, passes, -⟩ := content.passes
    unfold Step.ending at found
    split at found
    · obtain ⟨-, rfl⟩ : opening = _ ∧ place = _ := by simpa using found
      exact (inner.passes passes).getElem? ‹_›
    · split at found <;> simp at found
  | first _ ih | complete _ _ ih => exact ih text mem
  | square _ _ ih | cube _ _ ih => exact ih text (by simpa using mem)
  | operation left operator _ ihl ihr =>
    obtain ⟨w, passes, -⟩ := left.passes
    obtain ⟨v, sign, -⟩ := operator.passes
    rw [List.mem_append, Step.operator, List.mem_cons] at mem
    rcases mem with found | same | found
    · exact ihl text found
    · cases same
    · exact ihr ((text.passes passes).passes sign) found

/-! ## Missing factors -/

theorem mem_issues_closed {d : Diagnostic} (mem : d ∈ (p.closed opening).issues) :
    d ∈ p.issues ∨ d.kind = .unclosedParenthesis := by
  rcases closed_cases opening p with ⟨-, -, eq⟩ | ⟨-, eq⟩ | ⟨-, eq⟩ <;> rw [eq] at mem
  · exact .inl mem
  · exact .inl mem
  · rcases List.mem_append.1 mem with found | found
    · exact .inl found
    · rw [List.mem_singleton.1 found]
      exact .inr rfl

theorem mem_issues_argumentOf {d : Diagnostic} {name : List Char}
    (mem : d ∈ (p.argumentOf name place).issues) :
    d ∈ p.issues ∨ d.kind = .unknownFunction := by
  unfold Parsed.argumentOf at mem
  split at mem
  · exact .inl mem
  split at mem
  · exact .inl mem
  · rcases List.mem_cons.1 mem with rfl | found
    · exact .inr rfl
    · exact .inl found

/-- Something unexpected is reported where a factor is missing. -/
theorem Trace.misses (trace : Trace room stage c p t) {d : Diagnostic} (mem : d ∈ p.issues)
    (unexpected : d.kind = .unexpectedCharacter) : .misses d.position ∈ t := by
  induction trace with
  | tooDeep =>
    rw [List.mem_singleton.1 mem] at unexpected
    cases unexpected
  | missing =>
    rw [List.mem_singleton.1 mem]
    exact List.mem_singleton.2 rfl
  | @word _ _ _ _ _ anomaly _ begins =>
    cases anomaly with
    | none => cases mem
    | some anomaly =>
      rw [List.mem_singleton.1 mem] at unexpected
      rcases begins.word_kind with kind | kind <;> cases kind.symm.trans unexpected
  | plus _ _ ih | negate _ _ ih => exact List.mem_cons_of_mem _ (ih mem)
  | group _ _ _ ih =>
    rcases mem_issues_argumentOf mem with found | kind
    · rcases mem_issues_closed found with found | kind
      · simp [ih found]
      · rw [kind] at unexpected
        cases unexpected
    · rw [kind] at unexpected
      cases unexpected
  | first _ ih | complete _ _ ih => exact ih mem
  | square _ _ ih | cube _ _ ih =>
    rw [Parsed.join, List.append_nil] at mem
    exact List.mem_append_left _ (ih mem)
  | operation _ _ _ left right =>
    rcases List.mem_append.1 mem with found | found
    · exact List.mem_append_left _ (left found)
    · exact List.mem_append_right _ (List.mem_cons_of_mem _ (right found))

end Groups

/-! ## Fates -/

section Split
variable {α : Type} {x y : α} {t u before after : List α}

theorem split_cons (split : y :: t = before ++ x :: after) (other : y ≠ x) :
    ∃ rest, before = y :: rest ∧ t = rest ++ x :: after := by
  rcases List.cons_eq_append_iff.1 split with ⟨-, same⟩ | ⟨rest, rfl, rfl⟩
  · cases same
    exact absurd rfl other
  · exact ⟨rest, rfl, rfl⟩

theorem split_append (split : t ++ u = before ++ x :: after) :
    (∃ rest, t = before ++ x :: rest ∧ after = rest ++ u) ∨
      ∃ rest, before = t ++ rest ∧ u = rest ++ x :: after := by
  rcases List.append_eq_append_iff.1 split with ⟨rest, rfl, rfl⟩ | ⟨rest, rfl, eq⟩
  · exact .inr ⟨rest, rfl, rfl⟩
  · cases rest with
    | nil => exact .inr ⟨[], by simp, by simpa using eq.symm⟩
    | cons y rest =>
      cases eq
      exact .inl ⟨rest, rfl, rfl⟩

end Split

def termOperators : List Char := ['*', '/', '^', '²', '³']

/-- What has become of the character at `place`, where a factor of the source `s` was missing after
the steps `before`, when the steps `after` have led to the cursor `e`. -/
inductive Fate (s : List Char) (groups : List Nat) (e : Cursor) (before after : List Step)
    (place : Nat) : Prop
  /-- It has not been passed, and only groups around it have ended. -/
  | pending : e.position = place → e.halted = false →
      (∀ x ∈ e.peek, startsOperand x = false ∧ x ≠ '+' ∧ x ≠ '-') →
      (after = [] → openGroups groups before = groups) →
      (after ≠ [] → e.peek ≠ some ')') → Fate s groups e before after place
  /-- It has been passed as an operator. -/
  | passed {x} : s[place]? = some x → x ∈ termOperators → place < e.position →
      Fate s groups e before after place
  /-- It has closed the group. -/
  | closed {opening rest} : after = .closes opening place :: rest →
      (openGroups groups before).head? = some opening → s[place]? = some ')' →
      place < e.position → Fate s groups e before after place

section Fate
variable {room place : Nat} {k : Chain} {stage : Stage} {c d e : Cursor} {p : Parsed Expr}
  {s : List Char} {t u before after more : List Step} {groups : List Nat} {x : Char}

/-- Chains go on at operators and at the beginnings of operands. -/
theorem Chain.goesOn_cases (next : k.goesOn x) :
    x ∈ termOperators ∨ startsOperand x ∨ x = '+' ∨ x = '-' := by
  cases k with
  | power | term | sum =>
    simp only [goesOn, Bool.or_eq_true, beq_iff_eq] at next
    simp only [termOperators, List.mem_cons]
    grind

theorem exists_goesOn (operator : x ∈ termOperators) : ∃ k : Chain, k.goesOn x := by
  simp only [termOperators, List.mem_cons, List.not_mem_nil, or_false] at operator
  rcases operator with rfl | rfl | rfl | rfl | rfl
  · exact ⟨.term, rfl⟩
  · exact ⟨.term, rfl⟩
  · exact ⟨.power, rfl⟩
  · exact ⟨.power, rfl⟩
  · exact ⟨.power, rfl⟩

/-- Steps that leave the groups open as they are may be put before the others. -/
theorem Fate.prepend (h : Fate s groups e before after place)
    (same : openGroups groups t = groups) : Fate s groups e (t ++ before) after place := by
  have groups_eq : openGroups groups (t ++ before) = openGroups groups before := by
    rw [openGroups_append, same]
  cases h with
  | pending here going chars balanced other =>
    exact .pending here going chars (groups_eq ▸ balanced) other
  | passed found operator lt => exact .passed found operator lt
  | closed eq innermost found lt => exact .closed eq (groups_eq ▸ innermost) found lt

/-- A chain that goes on does so at one of its operators. -/
theorem Fate.extend (h : Fate s groups e before after place) (text : e.PlaceOf s)
    (next : ∃ x ∈ e.peek, k.goesOn x) (forward : e.position < d.position) :
    Fate s groups d before (after ++ more) place := by
  cases h with
  | pending here going chars =>
    obtain ⟨x, next, goesOn⟩ := next
    obtain ⟨operand, plus, minus⟩ := chars x next
    have operator : x ∈ termOperators := by
      rcases k.goesOn_cases goesOn with operator | starts | rfl | rfl
      · exact operator
      · simp [operand] at starts
      · exact absurd rfl plus
      · exact absurd rfl minus
    exact .passed (here ▸ text.getElem? next) operator (here ▸ forward)
  | passed found operator lt => exact .passed found operator (Nat.lt_trans lt forward)
  | @closed opening rest eq innermost found lt =>
    subst eq
    exact .closed rfl innermost found (Nat.lt_trans lt forward)

/-- The group around a missing factor is closed at its character, or it stays as open as it was. -/
theorem Fate.group {opening start : Nat} {name : List Char}
    (h : Fate s (opening :: groups) p.after before after place) (text : p.after.PlaceOf s) :
    Fate s groups (p.closed opening).after (.passes start name :: .opens opening :: before)
      (after ++ Step.ending opening p.after) place := by
  obtain ⟨w, closing⟩ := closed_passes opening p
  cases h with
  | pending here going chars balanced other =>
    by_cases found : p.after.peek = some ')'
    · -- No group inside has ended here, or its `)` would be this one.
      have last : after = [] := Decidable.byContradiction fun more => other more found
      have innermost : openGroups groups (.passes start name :: .opens opening :: before) =
          opening :: groups := balanced last
      have ending : Step.ending opening p.after = [.closes opening place] := by
        rw [Step.ending, if_pos found, here]
      have forward : (p.closed opening).after.position = p.after.position + 1 := by
        rw [Parsed.closed, if_pos found]
        rfl
      rw [last, ending]
      exact .closed rfl (by rw [innermost]; rfl) (here ▸ text.getElem? found) (by omega)
    · have ending : Step.ending opening p.after = [.abandons opening] := by
        rw [Step.ending, if_neg found, going]
        rfl
      rw [closed_of_open opening found going, ending]
      exact .pending here going chars (by simp) fun _ => found
  | passed found operator lt =>
    exact .passed found operator (Nat.lt_of_lt_of_le lt closing.position_le)
  | @closed opening rest eq innermost found lt =>
    subst eq
    exact .closed rfl innermost found (Nat.lt_of_lt_of_le lt closing.position_le)

/-- What becomes of a character at which a factor is missing. -/
theorem Trace.fate (trace : Trace room stage c p t) (text : c.PlaceOf s) (groups : List Nat)
    (split : t = before ++ .misses place :: after) :
    Fate s groups p.after before after place := by
  induction trace generalizing groups before after with
  | tooDeep => simp at split
  | @missing _ c _ _ h begins =>
    obtain ⟨rfl, rfl, rfl⟩ : before = [] ∧ place = c.position ∧ after = [] := by
      rcases List.cons_eq_append_iff.1 split with ⟨nothing, same⟩ | ⟨rest, -, outside⟩
      · cases same
        exact ⟨nothing, rfl, rfl⟩
      · simp at outside
    refine .pending rfl h.2 (fun x next => ?_) (fun _ => rfl) (fun more => absurd rfl more)
    rcases begins.missing with ⟨rfl, -⟩ | ⟨y, r, rfl, -, other⟩
    · simp [h.peek, Parsed.absent] at next
    · obtain rfl : y = x := by simpa [h.peek, Parsed.absent] using next
      exact other
  | word =>
    obtain ⟨rest, -, nothing⟩ := split_cons split (by simp)
    simp at nothing
  | plus _ _ ih | negate _ _ ih =>
    obtain ⟨rest, rfl, inside⟩ := split_cons split (by simp)
    exact (ih (text.advance 1) groups inside).prepend (t := [_]) rfl
  | @group _ c _ name p t _ _ content ih =>
    obtain ⟨w, passes, -⟩ := content.passes
    obtain ⟨rest, rfl, behind_name⟩ := split_cons split (by simp)
    obtain ⟨rest, rfl, behind_opening⟩ := split_cons behind_name (by simp)
    have inner := text.advance (name.length + 1)
    rw [Parsed.after_argumentOf]
    rcases split_append behind_opening with ⟨after, inside, rfl⟩ | ⟨rest, rfl, outside⟩
    · exact (ih inner _ inside).group (inner.passes passes)
    · have mem : Step.misses place ∈ Step.ending (c.position + name.length) p.after := by
        rw [outside]
        simp
      unfold Step.ending at mem
      split at mem
      · simp at mem
      · split at mem <;> simp at mem
  | first _ ih | complete _ _ ih => exact ih text groups split
  | @square _ c _ p t left h ih | @cube _ c _ p t left h ih =>
    obtain ⟨w, passes, -⟩ := left.passes
    rcases split_append split with ⟨after, inside, rfl⟩ | ⟨rest, rfl, outside⟩
    · exact (ih text _ inside).extend (text.passes passes) (k := .power) ⟨_, h.peek, rfl⟩
        (Nat.lt_succ_self _)
    · obtain ⟨rest, -, nothing⟩ := split_cons outside (by simp)
      simp at nothing
  | operation left operator right ihl ihr =>
    obtain ⟨w, passes, -⟩ := left.passes
    obtain ⟨v, sign, starts⟩ := operator.passes
    obtain ⟨u, passes', nonempty⟩ := right.passes
    rcases split_append split with ⟨rest, inside, rfl⟩ | ⟨rest, rfl, outside⟩
    · refine (ihl text _ inside).extend (text.passes passes) operator.goesOn ?_
      refine (sign.trans passes').position_lt fun nothing => ?_
      obtain ⟨rfl, rfl⟩ := List.append_eq_nil_iff.1 nothing
      exact nonempty (left.room_pos operator.going) (starts rfl) rfl
    · obtain ⟨rest, rfl, inside⟩ := split_cons outside (by simp [Step.operator])
      have operand := ihr ((text.passes passes).passes sign) groups inside
      exact (operand.prepend (t := [_]) rfl).prepend (left.balanced operator.going groups)

end Fate

end Parser

/-! ## Sources -/

section Sources
open Curves.Parser
variable {s : List Char} {t : List Step} {d : Diagnostic} {x : Char}

/-- The source `s` is read in the steps `t`. -/
def IsReadIn (s : List Char) (t : List Step) : Prop :=
  Trace maxDepth (.whole .sum) (.start s) (expression (factor maxDepth) (.start s)) t

theorem placeOf_start (s : List Char) : (Cursor.start s).PlaceOf s := rfl

/-- Where something unexpected is reported a factor is missing, and the text is read up to the place
that the parser has come to. -/
theorem misses_of_unexpected (trace : IsReadIn s t) (mem : d ∈ (parse s).diagnostics)
    (unexpected : d.kind = .unexpectedCharacter) : .misses d.position ∈ t ∧
      (parse s).consumed = (expression (factor maxDepth) (.start s)).after.position := by
  by_cases nonempty : s = []
  · subst s
    rw [List.mem_singleton.1 mem] at unexpected
    cases unexpected
  by_cases short : s.length ≤ maxLength
  · rw [parse_of_trace trace nonempty short] at mem ⊢
    refine ⟨?_, rfl⟩
    rcases List.mem_append.1 mem with found | found
    · exact Trace.misses trace found unexpected
    · rw [kind_of_mem_trailing found] at unexpected
      cases unexpected
  · rw [parse_of_long (Nat.not_le.1 short)] at mem
    rw [List.mem_singleton.1 mem] at unexpected
    cases unexpected

/-- Behind a missing factor, too, it is a `)` that closes the group. -/
theorem closes_of_closesGroup (trace : IsReadIn s t) {place : Nat} (closes : ClosesGroup t place) :
    s[place]? = some ')' := by
  obtain ⟨before, opening, after, rfl, -⟩ := closes
  have mem : Step.closes opening place ∈
      before ++ .misses place :: .closes opening place :: after := by simp
  exact Trace.closes_at trace (placeOf_start s) mem

/-- A character at which a factor is missing is not passed, or it closes the group in which the
factor is missing, unless it is an operator of a term or a power: then it is passed as one. -/
theorem parse_unexpected (s : List Char) :
    (∃ t, IsReadIn s t) ∧ ∀ t, IsReadIn s t → ∀ d ∈ (parse s).diagnostics,
      d.kind = .unexpectedCharacter → ∀ x, s[d.position]? = some x →
        ((parse s).consumed ≤ d.position ∨ ClosesGroup t d.position ↔
          x ∉ ['*', '/', '^', '²', '³']) := by
  refine ⟨exists_trace s, fun t trace d mem unexpected x found => ?_⟩
  obtain ⟨missing, consumed⟩ := misses_of_unexpected trace mem unexpected
  obtain ⟨before, after, split⟩ := List.append_of_mem missing
  obtain ⟨n, run⟩ := Trace.exists_run trace
  obtain ⟨w, passes, -⟩ := run.passes
  have fate := Trace.fate trace (placeOf_start s) [] split
  rw [consumed]
  cases fate with
  | pending here going =>
    refine iff_of_true (.inl (Nat.le_of_eq here)) fun operator => ?_
    have next : x ∈ (expression (factor maxDepth) (.start s)).after.peek := by
      rwa [((placeOf_start s).passes passes).peek going, here]
    obtain ⟨k, goesOn⟩ := exists_goesOn operator
    exact run.stops (by cases k <;> decide) x next goesOn
  | passed same operator lt =>
    obtain rfl := Option.some_inj.1 (found.symm.trans same)
    refine iff_of_false (fun stops => ?_) (fun other => other operator)
    rcases stops with stops | closes
    · exact absurd lt (Nat.not_lt.2 stops)
    · obtain rfl := Option.some_inj.1 (found.symm.trans (closes_of_closesGroup trace closes))
      exact absurd operator (by decide)
  | @closed opening rest eq innermost closing lt =>
    obtain rfl := Option.some_inj.1 (found.symm.trans closing)
    subst eq
    exact iff_of_true (.inr ⟨before, opening, rest, split, innermost⟩) (by decide)

/-- The group is closed by the `)` at which its second summand is missing, and it is not closed by
`]`, which is left over. -/
theorem parse_unexpected_closing :
    let s := ['(', '2', '+', ')', '*', ']']
    let d := (Anomaly.unexpectedCharacter ')').diagnostic 3
    let d' := (Anomaly.unexpectedCharacter ']').diagnostic 5
    d ∈ (parse s).diagnostics ∧ d' ∈ (parse s).diagnostics ∧ (parse s).consumed = 5 ∧
      ∃ t, IsReadIn s t ∧ ClosesGroup t 3 := by
  intro s d d'
  have mem : d ∈ (parse s).diagnostics := by decide +kernel
  have consumed : (parse s).consumed = 5 := by decide +kernel
  obtain ⟨⟨t, trace⟩, unexpected⟩ := parse_unexpected s
  have stops := (unexpected t trace d mem rfl ')' rfl).2 (by decide)
  rw [consumed] at stops
  exact ⟨mem, by decide +kernel, consumed, t, trace, stops.resolve_left (by decide)⟩

/-- At the first character of `*2` a factor is missing, and then it is passed as a product sign. -/
theorem unexpected_operator_passed :
    let s := ['*', '2']
    let d := (Anomaly.unexpectedCharacter '*').diagnostic 0
    d ∈ (parse s).diagnostics ∧ d.kind = .unexpectedCharacter ∧ s[d.position]? = some '*' ∧
      (parse s).consumed = 2 ∧ reported .trailingInput (parse s).diagnostics = 0 ∧
      ∀ t, IsReadIn s t → ¬ ((parse s).consumed ≤ d.position ∨ ClosesGroup t d.position) := by
  intro s d
  have consumed : (parse s).consumed = 2 := by decide +kernel
  refine ⟨by decide +kernel, rfl, rfl, consumed, by decide +kernel, fun t trace stops => ?_⟩
  rw [consumed] at stops
  rcases stops with stops | closes
  · exact absurd stops (by decide)
  · exact absurd (closes_of_closesGroup trace closes) (by decide)

end Sources

end Curves
