import Mathlib.Data.List.Basic
import OscalValidation.Console.Plain

set_option autoImplicit false

/-! # Escaped texts

A text that was escaped has no marks: where marks are dropped all of it is shown, apart from a
backslash at its end that may come twice (`isShownBy_append_escape`). A text need not be escaped exactly
if none of its brackets could open a mark and it does not end in a single backslash
(`escape_eq_self_iff`).
-/

namespace OscalValidation.Console

/-! ## Brackets -/

/-- Some bracket would open a mark if nothing stood before it. -/
def HasOpening (cs : List Char) : Prop :=
  ∃ before after, cs = before ++ '[' :: after ∧ opensMark after = true

theorem not_hasOpening_nil : ¬ HasOpening [] := by
  rintro ⟨before, after, h, -⟩
  cases before <;> cases h

theorem hasOpening_cons_iff {c : Char} {rest : List Char} :
    HasOpening (c :: rest) ↔ (c = '[' ∧ opensMark rest = true) ∨ HasOpening rest := by
  constructor
  · rintro ⟨before, after, heq, hopens⟩
    cases before with
    | nil =>
        obtain ⟨rfl, rfl⟩ := List.cons_eq_cons.mp heq
        exact .inl ⟨rfl, hopens⟩
    | cons d before =>
        obtain ⟨-, rfl⟩ := List.cons_eq_cons.mp heq
        exact .inr ⟨before, after, rfl, hopens⟩
  · rintro (⟨rfl, hopens⟩ | ⟨before, after, rfl, hopens⟩)
    · exact ⟨[], rest, rfl, hopens⟩
    · exact ⟨c :: before, after, rfl, hopens⟩

/-- Escaping takes no bracket away and brings none in front of another. -/
theorem head?_dropWhile_escapeAfter (slashes : Nat) (cs : List Char) :
    ((escapeAfter slashes cs).dropWhile fun d => d != '[' && d != ']').head? =
      (cs.dropWhile fun d => d != '[' && d != ']').head? := by
  have hslashes (count : Nat) (tail : List Char) :
      (List.replicate count '\\' ++ tail).dropWhile (fun d => d != '[' && d != ']') =
        tail.dropWhile fun d => d != '[' && d != ']' := by
    apply List.dropWhile_append_of_pos
    intro c hc
    rw [List.eq_of_mem_replicate hc]
    decide
  fun_induction escapeAfter slashes cs with
  | case1 slashes => simp
  | case2 slashes rest ih => rw [ih, List.dropWhile_cons, if_pos (by decide)]
  | case3 slashes rest ih =>
      rw [hslashes, List.dropWhile_cons, if_neg (by decide), List.dropWhile_cons,
        if_neg (by decide)]
      rfl
  | case4 slashes c rest _ _ ih =>
      rw [hslashes, List.dropWhile_cons, List.dropWhile_cons]
      split
      · exact ih
      · rfl

/-- Backslashes that are waiting come first. -/
theorem exists_escapeAfter_succ (slashes : Nat) (cs : List Char) :
    ∃ tail, escapeAfter (slashes + 1) cs = '\\' :: tail := by
  induction cs generalizing slashes with
  | nil => exact ⟨_, rfl⟩
  | cons c rest ih =>
      unfold escapeAfter
      split
      · next heq => cases heq
      · next heq =>
        cases heq
        exact ih (slashes + 1)
      · split
        · exact ⟨_, rfl⟩
        · exact ⟨_, rfl⟩
      · exact ⟨_, rfl⟩

/-- **A bracket opens a mark before its text is escaped exactly if it does after that.** -/
theorem opensMark_escapeAfter (cs : List Char) : opensMark (escapeAfter 0 cs) = opensMark cs := by
  cases cs with
  | nil => rfl
  | cons c rest =>
      have hslash (tail : List Char) : opensMark ('\\' :: tail) = false := by
        rw [opensMark, show beginsMark '\\' = false by decide, Bool.false_and]
      have hbracket (tail : List Char) : opensMark ('[' :: tail) = false := by
        rw [opensMark, show beginsMark '[' = false by decide, Bool.false_and]
      unfold escapeAfter
      split
      · next heq => cases heq
      · next heq =>
        cases heq
        obtain ⟨tail, htail⟩ := exists_escapeAfter_succ 0 rest
        rw [htail, hslash, hslash]
      · next heq =>
        cases heq
        rw [hbracket]
        split
        · exact hslash _
        · exact hbracket _
      · next heq =>
        cases heq
        rw [List.replicate_zero, List.nil_append, opensMark, opensMark,
          head?_dropWhile_escapeAfter]

/-! ## What is shown -/

theorem dropMarks_replicate (slashes count : Nat) (tail : List Char) :
    dropMarks false slashes (List.replicate count '\\' ++ tail) =
      dropMarks false (slashes + count) tail := by
  induction count generalizing slashes with
  | zero => rfl
  | succ count ih =>
      rw [List.replicate_succ, List.cons_append, dropMarks, if_neg Bool.false_ne_true, if_pos rfl,
        ih, Nat.add_right_comm, Nat.add_assoc]

/-- **Escaped characters are shown as they are.** -/
theorem dropMarks_escapeAfter (slashes : Nat) (cs : List Char) :
    dropMarks false 0 (escapeAfter slashes cs) = List.replicate slashes '\\' ++ cs := by
  fun_induction escapeAfter slashes cs with
  | case1 slashes => simpa [dropMarks] using dropMarks_replicate 0 slashes []
  | case2 slashes rest ih =>
      rw [ih, List.replicate_succ', List.append_assoc]
      rfl
  | case3 slashes rest ih =>
      rw [dropMarks_replicate, dropMarks, if_neg Bool.false_ne_true, if_neg (by decide),
        opensMark_escapeAfter]
      by_cases hopens : opensMark rest = true
      · have hodd : (0 + (2 * slashes + 1)) % 2 = 1 := by omega
        have hhalf : (0 + (2 * slashes + 1)) / 2 = slashes := by omega
        rw [if_pos hopens, if_pos ⟨rfl, hopens⟩, hhalf, ih]
        dsimp only
        rw [if_pos hodd]
        rfl
      · rw [if_neg hopens, if_neg fun h => hopens h.2, ih, Nat.zero_add]
        rfl
  | case4 slashes c rest hslash hbracket ih =>
      rw [dropMarks_replicate, dropMarks, if_neg Bool.false_ne_true, if_neg hslash,
        if_neg fun h => hbracket h.1, ih, Nat.zero_add]
      rfl

/-- Words without brackets and backslashes are shown, and so is what follows them. -/
theorem dropMarks_append {own : List Char} (hown : ∀ c ∈ own, c ≠ '\\' ∧ c ≠ '[')
    (cs : List Char) : dropMarks false 0 (own ++ cs) = own ++ dropMarks false 0 cs := by
  induction own with
  | nil => rfl
  | cons c rest ih =>
      obtain ⟨⟨hslash, hbracket⟩, hrest⟩ := List.forall_mem_cons.mp hown
      rw [List.cons_append, dropMarks, if_neg Bool.false_ne_true, if_neg hslash,
        if_neg fun h => hbracket h.1, ih hrest]
      rfl

/-! ## The end of a text -/

/-- There is one backslash at the end, not two. -/
def EndsInOneSlash (cs : List Char) : Prop :=
  ∃ before, cs = before ++ ['\\'] ∧ before.getLast? ≠ some '\\'

theorem closeSlashes_cases (cs : List Char) :
    (EndsInOneSlash cs ∧ closeSlashes cs = cs ++ ['\\']) ∨
      (¬ EndsInOneSlash cs ∧ closeSlashes cs = cs) := by
  unfold closeSlashes
  split
  · next rest heq =>
    refine .inr ⟨?_, rfl⟩
    rintro ⟨before, rfl, hlast⟩
    rw [List.reverse_concat', List.cons.injEq] at heq
    exact hlast (by rw [← List.head?_reverse, heq.2]; rfl)
  · next rest hsingle heq =>
    refine .inl ⟨⟨rest.reverse, ?_, fun hlast => ?_⟩, rfl⟩
    · rw [← List.reverse_reverse cs, heq, List.reverse_cons]
    · rw [List.getLast?_reverse] at hlast
      obtain ⟨more, rfl⟩ := List.head?_eq_some_iff.mp hlast
      exact hsingle more rfl
  · next hnone =>
    refine .inr ⟨?_, rfl⟩
    rintro ⟨before, rfl, -⟩
    exact hnone _ (List.reverse_concat' before '\\')

theorem opensMark_append_slash (cs : List Char) : opensMark (cs ++ ['\\']) = opensMark cs := by
  cases cs with
  | nil => decide
  | cons c rest =>
      have hhead : ((rest ++ ['\\']).dropWhile fun d => d != '[' && d != ']').head? =
          (rest.dropWhile fun d => d != '[' && d != ']').head? := by
        rw [List.dropWhile_append]
        split
        · next hempty =>
          rw [List.isEmpty_iff.mp hempty]
          rfl
        · next hne => exact List.head?_append_of_ne_nil _ (mt List.isEmpty_iff.mpr hne)
      rw [List.cons_append, opensMark, opensMark, hhead]

theorem escapeAfter_append_slash (slashes : Nat) (cs : List Char) :
    escapeAfter slashes (cs ++ ['\\']) = escapeAfter slashes cs ++ ['\\'] := by
  fun_induction escapeAfter slashes cs with
  | case1 slashes => exact List.replicate_succ'
  | case2 slashes rest ih => exact ih
  | case3 slashes rest ih =>
      rw [List.cons_append, escapeAfter, opensMark_append_slash, ih, List.append_assoc]
      rfl
  | case4 slashes c rest hslash hbracket ih =>
      rw [List.cons_append, escapeAfter, ih, List.append_assoc]
      · rfl
      · exact hslash
      · exact hbracket

/-- Escaping keeps the last character. -/
theorem getLast?_escapeAfter (slashes : Nat) (cs : List Char) :
    (escapeAfter slashes cs).getLast? = (List.replicate slashes '\\' ++ cs).getLast? := by
  fun_induction escapeAfter slashes cs with
  | case1 slashes => rw [List.append_nil]
  | case2 slashes rest ih =>
      rw [ih, List.replicate_succ', List.append_assoc]
      rfl
  | case3 slashes rest ih | case4 slashes _ rest _ _ ih =>
      rw [List.getLast?_append_cons, List.getLast?_append_cons, List.getLast?_cons,
        List.getLast?_cons, ih]
      rfl

theorem endsInOneSlash_escapeAfter_iff {cs : List Char} :
    EndsInOneSlash (escapeAfter 0 cs) ↔ EndsInOneSlash cs := by
  have hlast (before : List Char) : (escapeAfter 0 before).getLast? = before.getLast? :=
    getLast?_escapeAfter 0 before
  constructor
  · rintro ⟨before, heq, hbefore⟩
    have hcs : cs.getLast? = some '\\' := by
      rw [← hlast, heq, List.getLast?_concat]
    obtain ⟨init, rfl⟩ := List.getLast?_eq_some_iff.mp hcs
    rw [escapeAfter_append_slash] at heq
    refine ⟨init, rfl, ?_⟩
    rw [← hlast, List.append_cancel_right heq]
    exact hbefore
  · rintro ⟨before, rfl, hbefore⟩
    refine ⟨escapeAfter 0 before, escapeAfter_append_slash 0 before, ?_⟩
    rwa [hlast]

/-! ## Escaped texts -/

/-- **A text is shown as it is,** with a single backslash at its end doubled, and so are words in
front of it. -/
def IsShownBy (own text content : String) : Prop :=
  (EndsInOneSlash text.toList ∧ plain content = own ++ text ++ "\\") ∨
    (¬ EndsInOneSlash text.toList ∧ plain content = own ++ text)

/-- **An escaped text is shown as it is:** none of its brackets is taken for a mark. -/
theorem isShownBy_append_escape {own : String} (hown : ∀ c ∈ own.toList, c ≠ '\\' ∧ c ≠ '[')
    (s : String) : IsShownBy own s (own ++ escape s) := by
  have hshown (cs : List Char) (h : closeSlashes (escapeAfter 0 s.toList) = escapeAfter 0 cs) :
      plain (own ++ escape s) = own ++ String.ofList cs := by
    rw [plain, escape, String.toList_append, String.toList_ofList, h, dropMarks_append hown,
      dropMarks_escapeAfter, String.ofList_append, String.ofList_toList]
    rfl
  rcases closeSlashes_cases (escapeAfter 0 s.toList) with ⟨hends, heq⟩ | ⟨hends, heq⟩
  · rw [← escapeAfter_append_slash] at heq
    refine .inl ⟨endsInOneSlash_escapeAfter_iff.mp hends, ?_⟩
    rw [hshown _ heq, String.ofList_append, String.ofList_toList, String.append_assoc]
  · refine .inr ⟨mt endsInOneSlash_escapeAfter_iff.mpr hends, ?_⟩
    rw [hshown _ heq, String.ofList_toList]

/-- **The text reads the same whether it is escaped or not:** no bracket could open a mark, and no
single backslash is at the end. -/
def IsUnmarked (s : String) : Prop := ¬ HasOpening s.toList ∧ ¬ EndsInOneSlash s.toList

theorem escapeAfter_of_not_hasOpening {slashes : Nat} {cs : List Char} (h : ¬ HasOpening cs) :
    escapeAfter slashes cs = List.replicate slashes '\\' ++ cs := by
  fun_induction escapeAfter slashes cs with
  | case1 slashes => exact (List.append_nil _).symm
  | case2 slashes rest ih =>
      rw [hasOpening_cons_iff, not_or] at h
      rw [ih h.2, List.replicate_succ', List.append_assoc]
      rfl
  | case3 slashes rest ih =>
      rw [hasOpening_cons_iff, not_or] at h
      rw [if_neg fun hopens => h.1 ⟨rfl, hopens⟩, ih h.2]
      rfl
  | case4 slashes c rest _ _ ih =>
      rw [hasOpening_cons_iff, not_or] at h
      rw [ih h.2]
      rfl

theorem length_le_escapeAfter (slashes : Nat) (cs : List Char) :
    slashes + cs.length ≤ (escapeAfter slashes cs).length := by
  fun_induction escapeAfter slashes cs with
  | case1 slashes => simp
  | case2 slashes rest ih =>
      rw [List.length_cons]
      omega
  | case3 slashes rest ih =>
      rw [List.length_append, List.length_replicate, List.length_cons, List.length_cons]
      split <;> omega
  | case4 slashes c rest _ _ ih =>
      rw [List.length_append, List.length_replicate, List.length_cons, List.length_cons]
      omega

/-- Escaping a bracket makes the text longer. -/
theorem length_lt_escapeAfter {slashes : Nat} {cs : List Char} (h : HasOpening cs) :
    slashes + cs.length < (escapeAfter slashes cs).length := by
  fun_induction escapeAfter slashes cs with
  | case1 => exact absurd h not_hasOpening_nil
  | case2 slashes rest ih =>
      rcases hasOpening_cons_iff.mp h with ⟨hc, -⟩ | h
      · exact absurd hc (by decide)
      · have hlt := ih h
        rw [List.length_cons]
        omega
  | case3 slashes rest ih =>
      rw [List.length_append, List.length_replicate, List.length_cons, List.length_cons]
      by_cases hopens : opensMark rest = true
      · have hle := length_le_escapeAfter 0 rest
        rw [if_pos hopens]
        omega
      · rcases hasOpening_cons_iff.mp h with ⟨-, hrest⟩ | h
        · exact absurd hrest hopens
        · have hlt := ih h
          rw [if_neg hopens]
          omega
  | case4 slashes c rest _ hbracket ih =>
      rcases hasOpening_cons_iff.mp h with ⟨hc, -⟩ | h
      · exact absurd hc hbracket
      · have hlt := ih h
        rw [List.length_append, List.length_replicate, List.length_cons, List.length_cons]
        omega

/-- **Escaping leaves a text alone exactly if it is unmarked.** -/
theorem escape_eq_self_iff {s : String} : escape s = s ↔ IsUnmarked s := by
  have hchars : escape s = s ↔ closeSlashes (escapeAfter 0 s.toList) = s.toList := by
    rw [escape, ← String.toList_inj, String.toList_ofList]
  have hle := length_le_escapeAfter 0 s.toList
  rw [hchars]
  constructor
  · intro h
    have hlength := congrArg List.length h
    have hopening : ¬ HasOpening s.toList := by
      intro hopening
      have hlt := @length_lt_escapeAfter 0 _ hopening
      rcases closeSlashes_cases (escapeAfter 0 s.toList) with ⟨-, heq⟩ | ⟨-, heq⟩ <;>
        simp only [heq, List.length_append] at hlength <;> omega
    refine ⟨hopening, fun hends => ?_⟩
    rcases closeSlashes_cases (escapeAfter 0 s.toList) with ⟨-, heq⟩ | ⟨hnot, -⟩
    · simp only [heq, List.length_append, List.length_singleton] at hlength
      omega
    · exact hnot (endsInOneSlash_escapeAfter_iff.mpr hends)
  · rintro ⟨hopening, hends⟩
    rcases closeSlashes_cases (escapeAfter 0 s.toList) with ⟨hyes, -⟩ | ⟨-, heq⟩
    · exact absurd (endsInOneSlash_escapeAfter_iff.mp hyes) hends
    · exact heq.trans (escapeAfter_of_not_hasOpening hopening)

end OscalValidation.Console
