import Mathlib.Data.List.DropRight
import OscalValidation.Json.Reader
import OscalValidation.Proofs.Attempts
import OscalValidation.Xml.Reader

set_option autoImplicit false

/-! # How documents begin

A structural document begins with an opening bracket, an object with an opening brace; only blanks
may stand before them (`Xml.begins_of_read?`, `Json.begins_of_readDocument`).
-/

namespace OscalValidation

namespace Xml

open Scanner

/-! ## Structural documents -/

section Scanning

variable {α β : Type} {cs : List Char} {line : Nat}

/-- Scanners in a row. -/
theorem bind_of_some {x : Scanner α} {f : α → Scanner β} {cursor cursor' : Cursor} {a : α}
    (h : x cursor = some (a, cursor')) : (x >>= f) cursor = f a cursor' := by
  show (x cursor).bind _ = _
  rw [h]
  rfl

theorem bind_of_none {x : Scanner α} {f : α → Scanner β} {cursor : Cursor}
    (h : x cursor = none) : (x >>= f) cursor = none := by
  show (x cursor).bind _ = _
  rw [h]
  rfl

/-- What begins with a bracket is not seen where none comes next. -/
theorem sees_of_no_bracket {text : String} (ht : text.toList.head? = some '<')
    (hcs : cs.head? ≠ some '<') : sees text ⟨cs, line⟩ = some (false, ⟨cs, line⟩) := by
  have hseen : text.toList.isPrefixOf cs = false := by
    cases htext : text.toList with
    | nil => rw [htext] at ht; cases ht
    | cons c rest =>
        rw [htext] at ht
        cases ht
        cases cs with
        | nil => rfl
        | cons c' cs =>
            have hne : ('<' == c') = false := by
              rw [beq_eq_false_iff_ne]
              rintro rfl
              exact hcs rfl
            rw [List.isPrefixOf, hne, Bool.false_and]
  show some (text.toList.isPrefixOf cs, (⟨cs, line⟩ : Cursor)) = _
  rw [hseen]

theorem accept_of_no_bracket {text : String} (ht : text.toList.head? = some '<')
    (hcs : cs.head? ≠ some '<') : accept text ⟨cs, line⟩ = some (false, ⟨cs, line⟩) :=
  bind_of_some (sees_of_no_bracket ht hcs)

/-- Blanks are taken as a whole. -/
theorem space_eq (cs : List Char) (line : Nat) :
    ∃ blank line', space ⟨cs, line⟩ = some (blank, ⟨cs.dropWhile isSpace, line'⟩) := by
  have hdrop : cs.drop (cs.takeWhile isSpace).length = cs.dropWhile isSpace := by
    have hsplit := List.takeWhile_append_dropWhile (p := isSpace) (l := cs)
    calc cs.drop (cs.takeWhile isSpace).length
        = (cs.takeWhile isSpace ++ cs.dropWhile isSpace).drop (cs.takeWhile isSpace).length := by
          rw [hsplit]
      _ = cs.dropWhile isSpace := List.drop_left
  rw [← hdrop]
  exact ⟨!(cs.takeWhile isSpace).isEmpty, _, rfl⟩

/-- Where no bracket comes next, miscellany is at most blanks. -/
theorem miscellany_of_no_bracket (hcs : (cs.dropWhile isSpace).head? ≠ some '<')
    (bound line : Nat) : ∃ line', miscellany (bound + 1) ⟨cs, line⟩ =
      some ([], ⟨cs.dropWhile isSpace, line'⟩) := by
  obtain ⟨blank, line', hspace⟩ := space_eq cs line
  refine ⟨line', ?_⟩
  -- neither a comment nor an instruction comes next
  rw [miscellany, bind_of_some hspace, bind_of_some (accept_of_no_bracket (by decide) hcs),
    if_neg Bool.false_ne_true, bind_of_some (accept_of_no_bracket (by decide) hcs),
    if_neg Bool.false_ne_true]
  rfl

/-- Where no bracket comes first, nothing opens a document. -/
theorem opening_of_no_bracket (hcs : cs.head? ≠ some '<') :
    opening ⟨cs, line⟩ = some (false, ⟨cs, line⟩) := by
  rw [opening, bind_of_some (sees_of_no_bracket (by decide) hcs), if_neg Bool.false_ne_true]
  rfl

theorem documentType_of_no_bracket (hcs : cs.head? ≠ some '<') (bound : Nat)
    (standalone : Bool) :
    documentType bound standalone ⟨cs, line⟩ = some (Prolog.empty, ⟨cs, line⟩) := by
  rw [documentType, bind_of_some (accept_of_no_bracket (by decide) hcs),
    if_neg Bool.false_ne_true]
  rfl

/-- Where no bracket comes after blanks, there is no document. -/
theorem document_of_no_bracket (hcs : (cs.dropWhile isSpace).head? ≠ some '<')
    (bound line : Nat) : document (bound + 1) ⟨cs, line⟩ = none := by
  have hfirst : cs.head? ≠ some '<' := by
    intro h
    obtain ⟨rest, rfl⟩ := List.head?_eq_some_iff.mp h
    exact hcs rfl
  have hagain : (cs.dropWhile isSpace).dropWhile isSpace = cs.dropWhile isSpace :=
    List.dropWhile_idempotent isSpace cs
  have hcs' : ((cs.dropWhile isSpace).dropWhile isSpace).head? ≠ some '<' := by
    rw [hagain]
    exact hcs
  obtain ⟨line', hbefore⟩ := miscellany_of_no_bracket hcs bound line
  obtain ⟨line'', hafter⟩ := miscellany_of_no_bracket hcs' bound line'
  rw [hagain] at hafter
  have hexpect : expect "<" ⟨cs.dropWhile isSpace, line''⟩ = none := by
    rw [expect, bind_of_some (accept_of_no_bracket (by decide) hcs)]
    rfl
  -- each part of the prolog leaves the text as it is, until the root's bracket is missing
  rw [document, bind_of_some (opening_of_no_bracket hfirst), bind_of_some hbefore,
    bind_of_some (documentType_of_no_bracket hcs _ _)]
  dsimp only
  rw [bind_of_some hafter, bind_of_none hexpect]

end Scanning

/-- **A structural document begins with a bracket,** after blanks. -/
theorem begins_of_read? {s : String} {d : Document} (h : read? s = some d) :
    ∃ spaces after, s.toList = spaces ++ '<' :: after ∧ ∀ c ∈ spaces, isSpace c = true := by
  have hhead : (s.toList.dropWhile isSpace).head? = some '<' := by
    by_contra hnot
    have hnone := document_of_no_bracket hnot (10 * s.length + 99) 1
    rw [read?, hnone] at h
    cases h
  obtain ⟨after, hafter⟩ := List.head?_eq_some_iff.mp hhead
  refine ⟨s.toList.takeWhile isSpace, after, ?_, fun c hc => List.mem_takeWhile_imp hc⟩
  rw [← hafter, List.takeWhile_append_dropWhile]

end Xml

namespace Json

/-! ## Object documents -/

/-- A number is no object. -/
theorem number_of_readNumber? {cs rest : List Char} {value : Json}
    (h : readNumber? cs = some (.ok (value, rest))) :
    (∃ n, value = .int n) ∨ ∃ x, value = .real x := by
  unfold readNumber? at h
  dsimp only at h
  split at h
  · cases h
  · split at h
    · split at h
      · cases h
      · simp only [Option.some.injEq, Except.ok.injEq, Prod.mk.injEq] at h
        exact Or.inl ⟨_, h.1.symm⟩
    · simp only [Option.some.injEq, Except.ok.injEq, Prod.mk.injEq] at h
      exact Or.inr ⟨_, h.1.symm⟩

theorem not_obj_of_readScalar {cs rest : List Char} {members : List (String × Json)} :
    readScalar cs ≠ .ok (.obj members, rest) := by
  intro h
  unfold readScalar at h
  split at h
  · next word value hfound =>
    simp only [Except.ok.injEq, Prod.mk.injEq] at h
    obtain ⟨rfl, -⟩ := h
    have hmem := List.mem_of_find?_eq_some hfound
    simp [literals] at hmem
  · split at h
    · next reading hreading =>
      subst h
      rcases number_of_readNumber? hreading with ⟨n, hn⟩ | ⟨x, hx⟩
      · cases hn
      · cases hx
    · cases h

/-- Only what begins with a brace is read as an object. -/
theorem brace_of_readValue {fuel levels : Nat} {cs rest : List Char} {members : List (String × Json)}
    (h : readValue fuel levels cs = .ok (.obj members, rest)) : ∃ after, cs = '{' :: after := by
  cases fuel with
  | zero =>
      rw [readValue] at h
      cases h
  | succ fuel =>
      unfold readValue at h
      split at h
      · next text =>
        obtain ⟨⟨s, rest'⟩, -, h⟩ := bind_eq_ok_iff.mp h
        cases h
      · next items =>
        obtain ⟨inner, -, h⟩ := bind_eq_ok_iff.mp h
        split at h
        · cases h
        · obtain ⟨⟨items, rest'⟩, -, h⟩ := bind_eq_ok_iff.mp h
          cases h
      · exact ⟨_, rfl⟩
      · exact absurd h not_obj_of_readScalar

/-- **An object begins with a brace,** after blanks. -/
theorem begins_of_readDocument {cs : List Char} {members : List (String × Json)}
    (h : readDocument cs = .ok (.obj members)) :
    ∃ spaces after, cs = spaces ++ '{' :: after ∧ ∀ c ∈ spaces, isSpace c = true := by
  obtain ⟨⟨value, rest⟩, hvalue, h⟩ := bind_eq_ok_iff.mp h
  dsimp only at h
  split at h
  · rw [pure_eq_ok_iff] at h
    subst h
    obtain ⟨after, hafter⟩ := brace_of_readValue hvalue
    refine ⟨cs.takeWhile isSpace, after, ?_, fun c hc => List.mem_takeWhile_imp hc⟩
    rw [← hafter, skipSpace, List.takeWhile_append_dropWhile]
  · cases h

theorem begins_of_readDecoded {s : String} {members : List (String × Json)}
    (h : readDecoded s = .ok (.obj members)) :
    ∃ spaces after, s.toList = spaces ++ '{' :: after ∧ ∀ c ∈ spaces, isSpace c = true := by
  unfold readDecoded at h
  split at h
  · next value hvalue =>
    cases h
    exact begins_of_readDocument hvalue
  · cases h
  · cases h
  · cases h

theorem begins_of_read {s : String} {members : List (String × Json)}
    (h : read s = .ok (.obj members)) :
    ∃ spaces after, s.toList = spaces ++ '{' :: after ∧ ∀ c ∈ spaces, isSpace c = true := by
  unfold read at h
  split at h
  · cases h
  · exact begins_of_readDecoded h

end Json

end OscalValidation
