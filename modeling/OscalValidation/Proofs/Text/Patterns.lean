import Mathlib.Data.List.Forall2
import OscalValidation.Text.Pattern

set_option autoImplicit false

/-! # What a pattern matches

`Pattern.Matches` says what a pattern matches at a place of a text, constructor by constructor and
without derivatives. A pattern is found in a text exactly if it matches somewhere in it
(`Pattern.foundIn_iff`). A pattern of single characters between the start and the end of a line is
found in the texts that consist of such characters, with or without a line feed behind them
(`Pattern.foundIn_line_iff`).
-/

namespace OscalValidation.Text

namespace Pattern

/-! ## Matches -/

/-- The character before the place that `cs` leads to, from a place behind `before`. -/
def lastOf (before : Option Char) (cs : List Char) : Option Char := cs.getLast?.or before

theorem lastOf_nil (before : Option Char) : lastOf before [] = before := rfl

theorem lastOf_cons (before : Option Char) (c : Char) (cs : List Char) :
    lastOf before (c :: cs) = lastOf (some c) cs := by
  unfold lastOf
  rw [List.getLast?_cons]
  cases cs.getLast? <;> rfl

theorem lastOf_append (before : Option Char) (cs ds : List Char) :
    lastOf before (cs ++ ds) = lastOf (lastOf before cs) ds := by
  induction cs generalizing before with
  | nil => rfl
  | cons c cs ih => rw [List.cons_append, lastOf_cons, lastOf_cons, ih]

/-- **The pattern matches the characters** in the middle, between the character before them and
those after. -/
inductive Matches : Pattern → Option Char → List Char → List Char → Prop
  /-- The empty pattern matches nothing but the empty text. -/
  | empty {before : Option Char} {after : List Char} : Matches .empty before [] after
  /-- A set matches each of its characters. -/
  | one {set : CharSet} {before : Option Char} {c : Char} {after : List Char}
      (contained : set.contains c = true) : Matches (.one set) before [c] after
  /-- An anchor matches where it holds. -/
  | anchor {a : Anchor} {before : Option Char} {after : List Char}
      (holds : a.holds ⟨before, after⟩ = true) : Matches (.anchor a) before [] after
  /-- A sequence matches what its two patterns match one after the other. -/
  | seq {p q : Pattern} {before : Option Char} {cs ds after : List Char}
      (first : Matches p before cs (ds ++ after))
      (second : Matches q (lastOf before cs) ds after) : Matches (.seq p q) before (cs ++ ds) after
  /-- A choice matches what the first pattern matches. -/
  | left {p q : Pattern} {before : Option Char} {cs after : List Char}
      (first : Matches p before cs after) : Matches (.alt p q) before cs after
  /-- A choice matches what the second pattern matches. -/
  | right {p q : Pattern} {before : Option Char} {cs after : List Char}
      (second : Matches q before cs after) : Matches (.alt p q) before cs after
  | done {p : Pattern} {before : Option Char} {after : List Char} :
      Matches (.star p) before [] after
  /-- One match in a row, and others behind it. -/
  | more {p : Pattern} {before : Option Char} {cs ds after : List Char}
      (first : Matches p before cs (ds ++ after))
      (others : Matches (.star p) (lastOf before cs) ds after) :
      Matches (.star p) before (cs ++ ds) after

section Matches

variable {p q : Pattern} {before : Option Char} {cs after : List Char}

theorem not_matches_never : ¬ Matches .never before cs after := nofun

theorem matches_empty_iff : Matches .empty before cs after ↔ cs = [] := by
  constructor
  · rintro ⟨⟩
    rfl
  · rintro rfl
    exact .empty

theorem matches_one_iff {set : CharSet} :
    Matches (.one set) before cs after ↔ ∃ c, cs = [c] ∧ set.contains c = true := by
  constructor
  · rintro ⟨⟩
    exact ⟨_, rfl, ‹_›⟩
  · rintro ⟨c, rfl, contained⟩
    exact .one contained

theorem matches_anchor_iff {a : Anchor} :
    Matches (.anchor a) before cs after ↔ cs = [] ∧ a.holds ⟨before, after⟩ = true := by
  constructor
  · rintro ⟨⟩
    exact ⟨rfl, ‹_›⟩
  · rintro ⟨rfl, holds⟩
    exact .anchor holds

theorem matches_seq_iff :
    Matches (.seq p q) before cs after ↔ ∃ first second, cs = first ++ second ∧
      Matches p before first (second ++ after) ∧ Matches q (lastOf before first) second after := by
  constructor
  · intro h
    cases h with
    | seq first second => exact ⟨_, _, rfl, first, second⟩
  · rintro ⟨first, second, rfl, hfirst, hsecond⟩
    exact .seq hfirst hsecond

theorem matches_alt_iff :
    Matches (.alt p q) before cs after ↔ Matches p before cs after ∨ Matches q before cs after := by
  constructor
  · intro h
    cases h with
    | left first => exact Or.inl first
    | right second => exact Or.inr second
  · rintro (h | h)
    · exact .left h
    · exact .right h

theorem matches_andThen_iff :
    Matches (andThen p q) before cs after ↔ Matches (.seq p q) before cs after := by
  unfold andThen
  split <;> simp [matches_seq_iff, not_matches_never, matches_empty_iff, lastOf_nil]

theorem matches_orElse_iff :
    Matches (orElse p q) before cs after ↔ Matches p before cs after ∨ Matches q before cs after := by
  unfold orElse
  split
  · simp [not_matches_never]
  · simp [not_matches_never]
  · split
    · next hsame =>
      rw [matches_alt_iff]
      rcases hsame with rfl | rfl
      · exact (or_iff_right_of_imp Or.inl).symm
      · exact (or_iff_right_of_imp Or.inr).symm
    · exact matches_alt_iff
  · split
    · next hsame => simp [hsame]
    · exact matches_alt_iff

/-- **Which places a pattern matches without reading.** -/
theorem matches_nil_iff :
    Matches p before [] after ↔ p.matchesEmpty ⟨before, after⟩ = true := by
  induction p generalizing before after with
  | never => simp [not_matches_never, matchesEmpty]
  | empty => simp [matches_empty_iff, matchesEmpty]
  | one set => simp [matches_one_iff, matchesEmpty]
  | anchor a => simp [matches_anchor_iff, matchesEmpty]
  | seq p q ihp ihq =>
      rw [matches_seq_iff, matchesEmpty, Bool.and_eq_true, ← ihp, ← ihq]
      constructor
      · rintro ⟨first, second, hcs, hfirst, hsecond⟩
        obtain ⟨rfl, rfl⟩ := List.append_eq_nil_iff.mp hcs.symm
        exact ⟨hfirst, hsecond⟩
      · rintro ⟨hfirst, hsecond⟩
        exact ⟨[], [], rfl, hfirst, hsecond⟩
  | alt p q ihp ihq => rw [matches_alt_iff, matchesEmpty, Bool.or_eq_true, ihp, ihq]
  | star p => exact ⟨fun _ => rfl, fun _ => .done⟩

/-- Matches in a row that read something begin with one that does. -/
theorem exists_of_matches_star {c : Char} (h : Matches (.star p) before (c :: cs) after) :
    ∃ first second, cs = first ++ second ∧ Matches p before (c :: first) (second ++ after) ∧
      Matches (.star p) (lastOf before (c :: first)) second after := by
  generalize hstar : star p = row at h
  generalize hread : c :: cs = read at h
  induction h with
  | empty | one | anchor | seq | left | right => cases hstar
  | done => cases hread
  | @more _ before first second after hfirst others _ ih =>
      cases hstar
      cases first with
      | nil => exact ih rfl hread
      | cons d first =>
          rw [List.cons_append] at hread
          obtain ⟨rfl, rfl⟩ := List.cons_eq_cons.mp hread
          exact ⟨first, second, rfl, hfirst, others⟩

/-- **What a pattern matches behind a character** is what its derivative matches there. -/
theorem matches_cons_iff {c : Char} :
    Matches p before (c :: cs) after ↔
      Matches (p.derivative ⟨before, c :: (cs ++ after)⟩ c) (some c) cs after := by
  induction p generalizing before cs after with
  | never => simp [derivative, not_matches_never]
  | empty => simp [derivative, not_matches_never, matches_empty_iff]
  | anchor a => simp [derivative, not_matches_never, matches_anchor_iff]
  | one set =>
      rw [matches_one_iff, derivative]
      split
      · next contained => simp [matches_empty_iff, contained]
      · next missing => simp [not_matches_never, missing]
  | alt p q ihp ihq => rw [matches_alt_iff, derivative, matches_orElse_iff, ihp, ihq]
  | seq p q ihp ihq =>
      -- the character is read by the first pattern, or by the second if the first reads nothing
      have hsplit : Matches (.seq p q) before (c :: cs) after ↔
          Matches (.seq (p.derivative ⟨before, c :: (cs ++ after)⟩ c) q) (some c) cs after ∨
            p.matchesEmpty ⟨before, c :: (cs ++ after)⟩ = true ∧
              Matches (q.derivative ⟨before, c :: (cs ++ after)⟩ c) (some c) cs after := by
        rw [matches_seq_iff, matches_seq_iff, ← matches_nil_iff, ← ihq]
        constructor
        · rintro ⟨first, second, hcs, hfirst, hsecond⟩
          cases first with
          | nil =>
              rw [List.nil_append] at hcs
              subst hcs
              exact Or.inr ⟨hfirst, hsecond⟩
          | cons d first =>
              obtain ⟨rfl, rfl⟩ := List.cons_eq_cons.mp hcs
              rw [ihp, ← List.append_assoc] at hfirst
              rw [lastOf_cons] at hsecond
              exact Or.inl ⟨first, second, rfl, hfirst, hsecond⟩
        · rintro (⟨first, second, rfl, hfirst, hsecond⟩ | ⟨hempty, hsecond⟩)
          · refine ⟨c :: first, second, rfl, ?_, by rwa [lastOf_cons]⟩
            rwa [ihp, ← List.append_assoc]
          · exact ⟨[], c :: cs, rfl, hempty, hsecond⟩
      rw [hsplit, derivative]
      split
      · next hempty => simp [matches_orElse_iff, matches_andThen_iff, hempty]
      · next hempty => simp [matches_andThen_iff, hempty]
  | star p ih =>
      rw [derivative, matches_andThen_iff, matches_seq_iff]
      constructor
      · intro h
        obtain ⟨first, second, rfl, hfirst, others⟩ := exists_of_matches_star h
        rw [ih, ← List.append_assoc] at hfirst
        rw [lastOf_cons] at others
        exact ⟨first, second, rfl, hfirst, others⟩
      · rintro ⟨first, second, rfl, hfirst, others⟩
        rw [List.append_assoc, ← ih] at hfirst
        rw [← lastOf_cons before] at others
        exact .more hfirst others

end Matches

/-! ## Search -/

/-- A match of the pattern begins at the place. -/
def BeginsAt (p : Pattern) (before : Option Char) (cs : List Char) : Prop :=
  ∃ found after, cs = found ++ after ∧ Matches p before found after

/-- A match of the pattern begins at the place or behind it. -/
def BeginsFrom (p : Pattern) (before : Option Char) (cs : List Char) : Prop :=
  ∃ skipped rest, cs = skipped ++ rest ∧ BeginsAt p (lastOf before skipped) rest

section Search

variable {p q : Pattern} {before : Option Char} {c : Char} {cs : List Char}

theorem beginsAt_nil_iff : BeginsAt p before [] ↔ p.matchesEmpty ⟨before, []⟩ = true := by
  rw [← matches_nil_iff]
  constructor
  · rintro ⟨found, after, hcs, h⟩
    obtain ⟨rfl, rfl⟩ := List.append_eq_nil_iff.mp hcs.symm
    exact h
  · exact fun h => ⟨[], [], rfl, h⟩

theorem beginsAt_cons_iff :
    BeginsAt p before (c :: cs) ↔ p.matchesEmpty ⟨before, c :: cs⟩ = true ∨
      BeginsAt (p.derivative ⟨before, c :: cs⟩ c) (some c) cs := by
  rw [← matches_nil_iff]
  constructor
  · rintro ⟨found, after, hcs, h⟩
    cases found with
    | nil =>
        rw [List.nil_append] at hcs
        subst hcs
        exact Or.inl h
    | cons d found =>
        obtain ⟨rfl, rfl⟩ := List.cons_eq_cons.mp hcs
        exact Or.inr ⟨found, after, rfl, matches_cons_iff.mp h⟩
  · rintro (h | ⟨found, after, rfl, h⟩)
    · exact ⟨[], c :: cs, rfl, h⟩
    · exact ⟨c :: found, after, rfl, matches_cons_iff.mpr h⟩

theorem beginsAt_orElse_iff :
    BeginsAt (orElse p q) before cs ↔ BeginsAt p before cs ∨ BeginsAt q before cs := by
  unfold BeginsAt
  simp only [matches_orElse_iff, and_or_left, exists_or]

theorem beginsFrom_nil_iff : BeginsFrom p before [] ↔ BeginsAt p before [] := by
  constructor
  · rintro ⟨skipped, rest, hcs, h⟩
    obtain ⟨rfl, rfl⟩ := List.append_eq_nil_iff.mp hcs.symm
    exact h
  · exact fun h => ⟨[], [], rfl, h⟩

theorem beginsFrom_cons_iff :
    BeginsFrom p before (c :: cs) ↔ BeginsAt p before (c :: cs) ∨ BeginsFrom p (some c) cs := by
  constructor
  · rintro ⟨skipped, rest, hcs, h⟩
    cases skipped with
    | nil =>
        rw [List.nil_append] at hcs
        subst hcs
        exact Or.inl h
    | cons d skipped =>
        obtain ⟨rfl, rfl⟩ := List.cons_eq_cons.mp hcs
        rw [lastOf_cons] at h
        exact Or.inr ⟨skipped, rest, rfl, h⟩
  · rintro (h | ⟨skipped, rest, rfl, h⟩)
    · exact ⟨[], c :: cs, rfl, h⟩
    · rw [← lastOf_cons before] at h
      exact ⟨c :: skipped, rest, rfl, h⟩

/-- **What the search finds:** the match under way, or one that begins later. -/
theorem searchFrom_iff (pattern current : Pattern) (before : Option Char) (cs : List Char) :
    pattern.searchFrom before current cs = true ↔
      BeginsAt current before cs ∨ BeginsFrom pattern before cs := by
  induction cs generalizing current before with
  | nil =>
      rw [searchFrom, ← beginsAt_nil_iff, beginsAt_orElse_iff, beginsFrom_nil_iff]
  | cons c rest ih =>
      rw [searchFrom, Bool.or_eq_true, ih, beginsFrom_cons_iff, ← or_assoc, ← or_assoc,
        ← beginsAt_cons_iff, beginsAt_orElse_iff]

/-- **A pattern is found in a text exactly if it matches somewhere in it.** -/
theorem foundIn_iff (pattern : Pattern) (s : String) :
    pattern.foundIn s = true ↔ ∃ skipped found after, s.toList = skipped ++ (found ++ after) ∧
      Matches pattern skipped.getLast? found after := by
  have hnever : ¬ BeginsAt never none s.toList := fun ⟨_, _, _, h⟩ => not_matches_never h
  have hlast (skipped : List Char) : lastOf none skipped = skipped.getLast? := Option.or_none
  rw [foundIn, searchFrom_iff]
  constructor
  · rintro (h | ⟨skipped, rest, hcs, found, after, rfl, h⟩)
    · exact absurd h hnever
    · rw [hlast] at h
      exact ⟨skipped, found, after, hcs, h⟩
  · rintro ⟨skipped, found, after, hcs, h⟩
    rw [← hlast] at h
    exact Or.inr ⟨skipped, found ++ after, hcs, found, after, rfl, h⟩

end Search

/-! ## Patterns of a line -/

/-- The patterns that a sequence is made of, in their order. -/
def factors : Pattern → List Pattern
  | seq p q => p.factors ++ q.factors
  | p => [p]

/-- The patterns match the characters one after the other. -/
def MatchInTurn : List Pattern → Option Char → List Char → List Char → Prop
  | [], _, cs, _ => cs = []
  | p :: ps, before, cs, after => ∃ first others, cs = first ++ others ∧
      Matches p before first (others ++ after) ∧ MatchInTurn ps (lastOf before first) others after

section Lines

variable {before : Option Char} {cs after : List Char}

theorem matchInTurn_append_iff {ps qs : List Pattern} :
    MatchInTurn (ps ++ qs) before cs after ↔ ∃ first second, cs = first ++ second ∧
      MatchInTurn ps before first (second ++ after) ∧
        MatchInTurn qs (lastOf before first) second after := by
  induction ps generalizing before cs with
  | nil =>
      constructor
      · exact fun h => ⟨[], cs, rfl, rfl, h⟩
      · rintro ⟨_, second, rfl, rfl, h⟩
        exact h
  | cons p ps ih =>
      rw [List.cons_append, MatchInTurn]
      constructor
      · rintro ⟨first, _, rfl, hfirst, h⟩
        obtain ⟨others, second, rfl, hothers, hsecond⟩ := ih.mp h
        rw [List.append_assoc] at hfirst
        rw [← lastOf_append] at hsecond
        exact ⟨first ++ others, second, (List.append_assoc ..).symm, ⟨first, others, rfl, hfirst,
          hothers⟩, hsecond⟩
      · rintro ⟨_, second, rfl, ⟨first, others, rfl, hfirst, hothers⟩, hsecond⟩
        rw [← List.append_assoc] at hfirst
        rw [lastOf_append] at hsecond
        exact ⟨first, others ++ second, List.append_assoc .., hfirst, ih.mpr ⟨others, second, rfl,
          hothers, hsecond⟩⟩

/-- **A pattern matches what its factors match in turn.** -/
theorem matches_factors_iff {p : Pattern} :
    Matches p before cs after ↔ MatchInTurn p.factors before cs after := by
  induction p generalizing before cs after with
  | seq p q ihp ihq => rw [factors, matchInTurn_append_iff, matches_seq_iff]; simp only [ihp, ihq]
  | _ =>
      rw [factors, MatchInTurn]
      · simp [MatchInTurn]
      · nofun

/-- Sets in turn match characters of theirs. -/
theorem matchInTurn_sets_iff {sets : List CharSet} :
    MatchInTurn (sets.map one) before cs after ↔
      List.Forall₂ (fun set c => set.contains c = true) sets cs := by
  induction sets generalizing before cs with
  | nil => simp [MatchInTurn]
  | cons set sets ih =>
      rw [List.map_cons, MatchInTurn]
      simp only [matches_one_iff, ih]
      constructor
      · rintro ⟨_, others, rfl, ⟨c, rfl, contained⟩, hothers⟩
        exact .cons contained hothers
      · rintro (_ | ⟨contained, hothers⟩)
        exact ⟨[_], _, rfl, ⟨_, rfl, contained⟩, hothers⟩

/-- **Where a pattern of a line is found.** A line feed may follow, since the end of a line is also
the place before one that ends the text. -/
theorem foundIn_line_iff {p : Pattern} {sets : List CharSet} {s : String}
    (hp : p.factors = anchor .start :: (sets.map one ++ [anchor .lineEnd])) :
    p.foundIn s = true ↔ ∃ line,
      List.Forall₂ (fun set c => set.contains c = true) sets line ∧
        (s.toList = line ∨ s.toList = line ++ ['\n']) := by
  have hmatches (before : Option Char) (cs after : List Char) : Matches p before cs after ↔
      before = none ∧ List.Forall₂ (fun set c => set.contains c = true) sets cs ∧
        (after = [] ∨ after = ['\n']) := by
    rw [matches_factors_iff, hp, MatchInTurn]
    simp only [matchInTurn_append_iff, matchInTurn_sets_iff, MatchInTurn, matches_anchor_iff,
      Anchor.holds]
    constructor
    · rintro ⟨_, _, rfl, ⟨rfl, hbefore⟩, line, _, rfl, hline, _, _, rfl, ⟨rfl, hafter⟩, rfl⟩
      simp_all
    · rintro ⟨rfl, hline, hafter⟩
      refine ⟨[], cs, rfl, ⟨rfl, rfl⟩, cs, [], (List.append_nil cs).symm, hline, [], [], rfl,
        ⟨rfl, ?_⟩, rfl⟩
      rcases hafter with rfl | rfl <;> rfl
  rw [foundIn_iff]
  simp only [hmatches, List.getLast?_eq_none_iff]
  constructor
  · rintro ⟨_, line, after, hs, rfl, hline, rfl | rfl⟩
    · exact ⟨line, hline, Or.inl (by simpa using hs)⟩
    · exact ⟨line, hline, Or.inr hs⟩
  · rintro ⟨line, hline, hs | hs⟩
    · exact ⟨[], line, [], by simpa using hs, rfl, hline, Or.inl rfl⟩
    · exact ⟨[], line, ['\n'], hs, rfl, hline, Or.inr rfl⟩

end Lines

end Pattern

end OscalValidation.Text
