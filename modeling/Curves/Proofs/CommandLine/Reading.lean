import Curves.CommandLine.Command
import Mathlib.Data.List.Infix
import Mathlib.Tactic.SplitIfs

/-!
# What reading words keeps

The settings that some words describe come from the initial ones by the changes of options and
arguments, each of them made with a value that the words give. So a property of the settings holds
in the end if it holds at the start and each change keeps it. The value of an option waits before it
is checked, so the invariant of a reading speaks of the change that is still to be made, too.

Main statements:

* `Reading.Holds`: the invariant, with a law for each step of a reading;
* `Grammar.holds_foldlM`, `Grammar.read_keeps`: what all words keep;
* `Grammar.readTo_eq_ok`: where reading stops.
-/

namespace Curves.CommandLine

/-! ## Steps that may fail -/

section Except
variable {ε α β : Type} {x : Except ε α} {b : β} {e : ε}

/-- A computation has a result if its first step has one and the second step has one for that. -/
theorem bind_eq_ok_iff {f : α → Except ε β} : x >>= f = .ok b ↔ ∃ a, x = .ok a ∧ f a = .ok b := by
  cases x <;> simp [bind, Except.bind]

theorem bind_eq_error_iff {f : α → Except ε β} :
    x >>= f = .error e ↔ x = .error e ∨ ∃ a, x = .ok a ∧ f a = .error e := by
  cases x <;> simp [bind, Except.bind]

theorem bind_pure_eq_error_iff {f : α → β} :
    (x >>= fun a => pure (f a)) = .error e ↔ x = .error e := by
  cases x <;> simp [bind, Except.bind, pure, Except.pure]

theorem map_eq_ok_iff {f : α → β} : x.map f = .ok b ↔ ∃ a, x = .ok a ∧ f a = b := by
  cases x <;> simp [Except.map]

end Except

/-! ## Changes -/

/-- Whether a change keeps a property of the settings wherever it succeeds. -/
def Keeps {σ : Type} (P : σ → Prop) (change : σ → Except Misuse σ) : Prop :=
  ∀ s t, P s → change s = .ok t → P t

/-- Whether words give a value to a long option: attached to it, or as the word behind it. -/
def Given (words : List String) (name value : String) : Prop :=
  "--" ++ name ++ "=" ++ value ∈ words ∨ ["--" ++ name, value] <:+: words

theorem Given.mono {words more : List String} {name value : String} (given : Given words name value)
    (part : words <:+: more) : Given more name value :=
  given.imp (fun word => part.subset word) (fun pair => pair.trans part)

/-- A long option as it is written. -/
theorem Word.eq_of_ofChars {word name : String} {value? : Option String}
    (look : Word.ofChars word.toList = .long name value?) :
    word = "--" ++ name ++ value?.elim "" ("=" ++ ·) := by
  refine String.toList_injective ?_
  unfold Word.ofChars at look
  split at look
  · cases look
  · next rest _ chars =>
    obtain ⟨rfl, rfl⟩ := Word.long.inj look
    have cut := List.takeWhile_append_dropWhile (p := (· ≠ '=')) (l := rest)
    have stops := List.head?_dropWhile_not (· ≠ '=') rest
    clear look
    generalize rest.takeWhile (· ≠ '=') = front at cut ⊢
    generalize rest.dropWhile (· ≠ '=') = behind at cut stops ⊢
    subst cut
    cases behind with
    | nil => simp [chars]
    | cons c value =>
      obtain rfl : c = '=' := by simpa using stops
      simp [chars]
  all_goals cases look

theorem given_of_look {words rest : List String} {word name value : String} {value? : Option String}
    (part : word :: rest <:+ words) (look : Word.ofChars word.toList = .long name value?)
    (known : value?.or rest.head? = some value) : Given words name value := by
  obtain rfl := Word.eq_of_ofChars look
  cases value? with
  | some attached =>
    obtain rfl : attached = value := Option.some.inj known
    exact .inl (part.subset (by simp [String.append_assoc]))
  | none =>
    obtain ⟨behind, rfl⟩ := List.head?_eq_some_iff.1 (Option.none_or.symm.trans known)
    refine .inr (List.IsInfix.trans ?_ part.isInfix)
    exact ⟨[], behind, by simp⟩

namespace Parameter
variable {σ τ : Type} {given : String → String → Prop} {P : σ → Prop}

/-- Whether an option keeps a property of the settings. An option without a letter has to do so for
the given values only. -/
def Keeps (given : String → String → Prop) (P : σ → Prop) (p : Parameter σ) : Prop :=
  match p.effect with
  | .mark set => CommandLine.Keeps P set
  | .store set => ∀ value, (p.letter = none → given p.long value) → CommandLine.Keeps P (set value)

theorem keeps_true (p : Parameter σ) : p.Keeps given fun _ => True := by
  unfold Keeps
  split
  · exact fun _ _ _ _ => trivial
  · exact fun _ _ _ _ _ _ => trivial

theorem keeps_value {α : Type} {long : String} {letter : Option Char}
    {read : List Char → Option α} {set : α → σ → σ} (keeps : ∀ a s, P s → P (set a s)) :
    (Parameter.value long letter read set).Keeps given P := by
  intro value _ s t hs changed
  obtain ⟨a, -, rfl⟩ := map_eq_ok_iff.1 changed
  exact keeps a s hs

theorem keeps_flag {long : String} {set : σ → σ} (keeps : ∀ s, P s → P (set s)) :
    (Parameter.flag long set).Keeps given P := by
  intro s t hs changed
  obtain rfl := Except.ok.inj changed
  exact keeps s hs

/-- An option of a part of the settings keeps what follows from a property of the part. -/
theorem Keeps.within {Q : τ → Prop} {get : τ → σ} {set : σ → τ → τ} {p : Parameter σ}
    (kept : p.Keeps given P) (part : ∀ t, Q t → P (get t))
    (whole : ∀ s t, Q t → P s → Q (set s t)) : (p.within get set).Keeps given Q := by
  obtain ⟨long, letter, anyValue, effect⟩ := p
  cases effect with
  | mark change =>
    intro t t' ht changed
    obtain ⟨s, made, rfl⟩ := map_eq_ok_iff.1 changed
    exact whole s t ht (kept _ _ (part t ht) made)
  | store change =>
    intro value given t t' ht changed
    obtain ⟨s, made, rfl⟩ := map_eq_ok_iff.1 changed
    exact whole s t ht (kept value given _ _ (part t ht) made)

end Parameter

structure Grammar.Keeps {σ : Type} (g : Grammar σ) (given : String → String → Prop)
    (P : σ → Prop) : Prop where
  parameters : ∀ p ∈ g.parameters, p.Keeps given P
  arguments : ∀ a ∈ g.arguments, ∀ word, CommandLine.Keeps P (a.set word)

/-- A command keeps what its own options and arguments keep. -/
theorem Draft.grammar_keeps {α : Type} {given : String → String → Prop} {P : α → Prop}
    {own : List (Parameter α)} {arguments : List (Argument (Draft α))} {negativeNumbers : Bool}
    (parameters : ∀ p ∈ own, p.Keeps given P)
    (others : ∀ a ∈ arguments, ∀ word, Keeps (fun d => P d.own) (a.set word)) :
    (Draft.grammar own arguments negativeNumbers).Keeps given fun d => P d.own where
  parameters := by
    refine List.forall_mem_append.2 ⟨List.forall_mem_map.2 fun p hp => ?_,
      List.forall_mem_map.2 fun p _ => ?_⟩
    · exact (parameters p hp).within (fun _ hd => hd) fun _ _ _ hs => hs
    · exact p.keeps_true.within (fun _ _ => trivial) fun _ _ hd _ => hd
  arguments := by
    refine List.forall_mem_cons.2 ⟨fun word d d' hd changed => ?_, others⟩
    obtain rfl := Except.ok.inj changed
    exact hd

/-! ## The invariant of a reading -/

namespace Reading
variable {σ : Type} {given : String → String → Prop} {P : σ → Prop} {r r' : Reading σ}
  {rest : List String}

def next? (r : Reading σ) (rest : List String) : Option String :=
  if r.literal then none else rest.head?

/-- What is known of a reading with the words `rest` still in front: its settings have the property,
and what is still to be done keeps it. -/
structure Holds (P : σ → Prop) (rest : List String) (r : Reading σ) : Prop where
  settings : P r.settings
  pending : ∀ p, r.pending = some p → ∀ value, p.value.or (r.next? rest) = some value →
    Keeps P (p.set value)
  remaining : ∀ a ∈ r.remaining, ∀ word, Keeps P (a.set word)

theorem Holds.apply {option : String} {change : σ → Except Misuse σ} (held : r.Holds P rest)
    (keeps : Keeps P change) (ok : r.apply option change = .ok r') : r'.Holds P rest := by
  unfold Reading.apply at ok
  split_ifs at ok
  obtain ⟨settings, changed, rfl⟩ := map_eq_ok_iff.1 ok
  exact ⟨keeps _ _ held.settings changed, held.pending, held.remaining⟩

/-- Once the pending option is checked, nothing depends on the next words. -/
theorem Holds.settle (held : r.Holds P rest) (ok : r.settle = .ok r') (after : List String) :
    r'.Holds P after := by
  unfold Reading.settle at ok
  split at ok
  · next none =>
    obtain rfl := Except.ok.inj ok
    exact ⟨held.settings, fun p some => absurd (none.symm.trans some) (by simp), held.remaining⟩
  · next p some =>
    split at ok
    · cases ok
    · next value known =>
      have keeps : Keeps P (p.set value) :=
        held.pending p some value (by rw [known, Option.some_or])
      have cleared : { r with pending := none }.Holds P after :=
        ⟨held.settings, fun p some => absurd some (by simp), held.remaining⟩
      exact cleared.apply keeps ok

theorem Holds.argue {word : String} (held : r.Holds P rest) (ok : r.argue word = .ok r')
    (after : List String) : r'.Holds P after := by
  unfold Reading.argue at ok
  split at ok
  · cases ok
  · next argument others places =>
    obtain ⟨settled, settle, ok⟩ := bind_eq_ok_iff.1 ok
    obtain ⟨settings, changed, ok⟩ := bind_eq_ok_iff.1 ok
    obtain rfl := Except.ok.inj ok
    have held' := held.settle settle after
    have keeps := held.remaining argument (by simp [places]) word
    refine ⟨keeps _ _ held'.settings changed, held'.pending, ?_⟩
    split_ifs
    · exact held'.remaining
    · exact fun a ha => held.remaining a (by simp [places, ha])

theorem Holds.take {word : String} (unmarked : r.literal = false) (held : r.Holds P (word :: rest))
    (ok : r.take word = .ok r') : r'.Holds P rest := by
  unfold Reading.take at ok
  split at ok
  · next p waits =>
    obtain rfl := Except.ok.inj ok
    obtain ⟨some, none⟩ := Option.filter_eq_some_iff.1 waits
    refine ⟨held.settings, fun q same value known => ?_, held.remaining⟩
    obtain rfl := Option.some.inj same
    have awaited : p.value.or (r.next? (word :: rest)) = .some word := by
      simp [Option.isNone_iff_eq_none.1 none, next?, unmarked]
    obtain rfl := Option.some.inj known
    exact held.pending p some word awaited
  · exact held.argue ok rest

/-- Giving a value to an option keeps what is known if the option keeps the property. -/
theorem Holds.give {p : Parameter σ} {value? : Option String} {before : List String}
    (held : r.Holds P before) (keeps : p.Keeps given P)
    (fits : ∀ value, value?.or rest.head? = some value → p.letter = none → given p.long value)
    (ok : r.give p value? = .ok r') : r'.Holds P rest := by
  obtain ⟨long, letter, anyValue, effect⟩ := p
  unfold Reading.give at ok
  split at ok
  · cases ok
  · next set mark =>
    obtain rfl : effect = .mark set := mark
    obtain ⟨settled, settle, ok⟩ := bind_eq_ok_iff.1 ok
    exact (held.settle settle rest).apply keeps ok
  · next set value store =>
    obtain rfl : effect = .store set := store
    obtain ⟨settled, settle, ok⟩ := bind_eq_ok_iff.1 ok
    exact (held.settle settle rest).apply (keeps value (fits value rfl)) ok
  · next set store =>
    obtain rfl : effect = .store set := store
    obtain ⟨settled, settle, ok⟩ := bind_eq_ok_iff.1 ok
    obtain rfl := Except.ok.inj ok
    have held' := held.settle settle rest
    refine ⟨held'.settings, fun q same value known => ?_, held'.remaining⟩
    obtain rfl := Option.some.inj same
    have attached : none.or rest.head? = some value := by
      rw [Option.none_or] at known ⊢
      unfold next? at known
      split_ifs at known
      exact known
    exact keeps value (fits value attached)

end Reading

/-! ## Words -/

/-- Letters are at least one. -/
theorem Word.ne_nil_of_ofChars {cs letters : List Char}
    (look : Word.ofChars cs = .letters letters) : letters ≠ [] := by
  unfold Word.ofChars at look
  split at look <;> simp_all

namespace Grammar
variable {σ : Type} {g : Grammar σ} {given : String → String → Prop} {P : σ → Prop}
  {r r' : Reading σ} {rest : List String}

theorem holds_giveLetters (keeps : g.Keeps given P) {letters : List Char} {before : List String}
    (held : r.Holds P before) (next : letters = [] → r.Holds P rest)
    (ok : g.giveLetters r letters = .ok r') : r'.Holds P rest := by
  induction letters generalizing r before with
  | nil =>
    obtain rfl := Except.ok.inj ok
    exact next rfl
  | cons c letters ih =>
    rw [giveLetters] at ok
    split at ok
    · cases ok
    · next p found =>
      have kept := keeps.parameters p (List.mem_of_find?_eq_some found)
      have letter : p.letter = some c := by simpa using List.find?_some found
      -- an option with a letter keeps the property whatever its value
      have fits {value? : Option String} (value : String) (_ : value?.or rest.head? = some value)
          (none : p.letter = none) : given p.long value :=
        absurd (letter.symm.trans none) (by simp)
      split at ok
      · obtain ⟨between, give, ok⟩ := bind_eq_ok_iff.1 ok
        have held' : between.Holds P rest := held.give kept fits give
        exact ih held' (fun _ => held') ok
      all_goals exact held.give kept fits ok

/-- Reading a word keeps what is known. -/
theorem holds_step (keeps : g.Keeps given P) {word : String}
    (fits : ∀ name value? value, Word.ofChars word.toList = .long name value? →
      value?.or rest.head? = some value → given name value)
    (held : r.Holds P (word :: rest)) (ok : g.step r word = .ok r') : r'.Holds P rest := by
  unfold step at ok
  by_cases literal : r.literal
  · rw [if_pos literal] at ok
    exact held.argue ok rest
  rw [if_neg literal] at ok
  have unmarked := Bool.eq_false_iff.2 literal
  cases look : Word.ofChars word.toList with
  | separator =>
    simp only [look] at ok
    split_ifs at ok
    · exact held.take unmarked ok
    · obtain rfl := Except.ok.inj ok
      refine ⟨held.settings, fun p some value known => ?_, held.remaining⟩
      have checked : p.value = .some value := by simpa [Reading.next?] using known
      exact held.pending p some value (by rw [checked, Option.some_or])
  | long name value? =>
    cases found : g.parameters.find? fun p => p.long == name with
    | none =>
      simp only [look, found] at ok
      split_ifs at ok
      all_goals exact held.take unmarked ok
    | some p =>
      simp only [look, found] at ok
      split_ifs at ok
      · exact held.take unmarked ok
      · have kept := keeps.parameters p (List.mem_of_find?_eq_some found)
        have named : p.long = name := by simpa using List.find?_some found
        exact held.give kept (fun value known _ => named ▸ fits name value? value look known) ok
  | letters letters =>
    simp only [look] at ok
    split_ifs at ok
    · exact held.take unmarked ok
    · exact holds_giveLetters keeps held (absurd · (Word.ne_nil_of_ofChars look)) ok
  | plain =>
    simp only [look] at ok
    exact held.take unmarked ok

/-- What all words keep, of which `words` are still in front. -/
theorem holds_foldlM {all words : List String} (keeps : g.Keeps (Given all) P)
    (part : words <:+ all) (held : r.Holds P words) (ok : words.foldlM g.step r = .ok r') :
    r'.Holds P [] := by
  induction words generalizing r with
  | nil =>
    obtain rfl := Except.ok.inj ok
    exact held
  | cons word words ih =>
    rw [List.foldlM_cons] at ok
    obtain ⟨between, step, ok⟩ := bind_eq_ok_iff.1 ok
    have held' : between.Holds P words := holds_step keeps
      (fun name value? value look known => given_of_look part look known) held step
    exact ih ((List.suffix_cons word words).trans part) held' ok

theorem holds_start (keeps : g.Keeps given P) {s : σ} (hs : P s) (words : List String) :
    (g.start s).Holds P words :=
  ⟨hs, fun p some => absurd some (by simp [start]), keeps.arguments⟩

/-- A property of the initial settings that all options and arguments keep holds of the settings
that the words describe. -/
theorem read_keeps {words : List String} (keeps : g.Keeps (Given words) P) {s t : σ} (hs : P s)
    (ok : g.read s words = .ok t) : P t := by
  obtain ⟨r, folded, ok⟩ := bind_eq_ok_iff.1 ok
  obtain ⟨settled, settle, ok⟩ := bind_eq_ok_iff.1 ok
  obtain rfl := Except.ok.inj ok
  have held : r.Holds P [] :=
    holds_foldlM keeps (List.suffix_refl words) (holds_start keeps hs words) folded
  exact (held.settle settle []).settings

/-- Reading stops at one of the words, with those behind it left over. -/
theorem readTo_eq_ok {κ : Type} {stop : String → Option κ} {answer : κ} {words : List String}
    (ok : g.readTo stop r words = .ok (r', some (answer, rest))) :
    ∃ word, word :: rest <:+ words ∧ stop word = some answer := by
  induction words generalizing r with
  | nil => cases ok
  | cons word words ih =>
    rw [readTo] at ok
    split at ok
    · next found stops =>
      obtain ⟨rfl, rfl, rfl⟩ : r = r' ∧ found = answer ∧ words = rest := by simpa using ok
      split_ifs at stops
      exact ⟨word, List.suffix_refl _, stops⟩
    · obtain ⟨between, -, ok⟩ := bind_eq_ok_iff.1 ok
      obtain ⟨stopped, place, stops⟩ := ih ok
      exact ⟨stopped, place.trans (List.suffix_cons word words), stops⟩

end Grammar

end Curves.CommandLine
