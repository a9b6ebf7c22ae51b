import Mathlib.Data.List.Basic
import Mathlib.Data.List.TakeWhile
import OscalValidation.Text.Blank

set_option autoImplicit false

/-! # Blanks between the parts of a text

A text consists of parts with gaps of blank characters between them (`Spread`): of words, or of
paragraphs. Its words are the parts without blanks in them, and where its space is made uniform
there is one space between two words and no blank at either end (`isUniform_normalizeSpace`).
-/

namespace OscalValidation.Text

/-! ## Blank and solid characters -/

def AllBlank (cs : List Char) : Prop := ∀ c ∈ cs, isBlank c = true

instance (cs : List Char) : Decidable (AllBlank cs) := List.decidableBAll _ cs

/-- The characters that are not blank, in order. -/
def solid (cs : List Char) : List Char := cs.filter (!isBlank ·)

theorem allBlank_nil : AllBlank [] := nofun

theorem AllBlank.append {cs ds : List Char} (hcs : AllBlank cs) (hds : AllBlank ds) :
    AllBlank (cs ++ ds) :=
  List.forall_mem_append.mpr ⟨hcs, hds⟩

theorem solid_append (cs ds : List Char) : solid (cs ++ ds) = solid cs ++ solid ds :=
  List.filter_append ..

theorem solid_eq_nil_iff {cs : List Char} : solid cs = [] ↔ AllBlank cs := by
  simp [solid, AllBlank, List.filter_eq_nil_iff]

theorem AllBlank.solid_eq {cs : List Char} (h : AllBlank cs) : solid cs = [] :=
  solid_eq_nil_iff.mpr h

theorem allBlank_takeWhile (cs : List Char) : AllBlank (cs.takeWhile isBlank) :=
  List.all_eq_true.mp List.all_takeWhile

theorem dropWhile_eq_nil_iff_allBlank {cs : List Char} :
    cs.dropWhile isBlank = [] ↔ AllBlank cs := by
  exact List.dropWhile_eq_nil_iff

/-- What is left after a run begins with something else. -/
theorem not_of_mem_head?_dropWhile (p : Char → Bool) (cs : List Char) :
    ∀ c ∈ (cs.dropWhile p).head?, p c = false := by
  intro c hc
  have hfirst := List.head?_dropWhile_not p cs
  rw [Option.mem_def] at hc
  rwa [hc] at hfirst

/-! ## Trimmed texts -/

/-- **Trimmed:** no blank is the first or the last character. -/
def IsTrimmed (cs : List Char) : Prop :=
  (∀ c ∈ cs.head?, isBlank c = false) ∧ ∀ c ∈ cs.getLast?, isBlank c = false

theorem isTrimmed_nil : IsTrimmed [] := ⟨nofun, nofun⟩

theorem dropWhile_of_head? {cs : List Char} (h : ∀ c ∈ cs.head?, isBlank c = false) :
    cs.dropWhile isBlank = cs := by
  cases cs with
  | nil => rfl
  | cons c rest => rw [List.dropWhile_cons, h c rfl, if_neg Bool.false_ne_true]

/-- The blanks in front end before the last character if that is not blank. -/
theorem takeWhile_append_of_getLast? {cs : List Char} (hne : cs ≠ [])
    (h : ∀ c ∈ cs.getLast?, isBlank c = false) (tail : List Char) :
    (cs ++ tail).takeWhile isBlank = cs.takeWhile isBlank := by
  rw [List.takeWhile_append, if_neg]
  intro hlength
  have heq : cs.takeWhile isBlank = cs := (List.takeWhile_prefix isBlank).eq_of_length hlength
  have hblank := List.takeWhile_eq_self_iff.mp heq _ (List.getLast_mem hne)
  rw [h _ (List.getLast?_eq_some_getLast hne)] at hblank
  cases hblank

theorem trimEndChars_append {cs trail : List Char} (htrail : AllBlank trail)
    (h : ∀ c ∈ cs.getLast?, isBlank c = false) : trimEndChars (cs ++ trail) = cs := by
  have hrev : ∀ c ∈ trail.reverse, isBlank c = true := fun c hc =>
    htrail c (List.mem_reverse.mp hc)
  rw [trimEndChars, List.reverse_append, List.dropWhile_append_of_pos hrev, dropWhile_of_head?,
    List.reverse_reverse]
  rwa [List.head?_reverse]

/-- **Trimming takes away the blanks around a trimmed text** and nothing else. -/
theorem trimChars_append {lead part trail : List Char} (hlead : AllBlank lead)
    (hpart : IsTrimmed part) (htrail : AllBlank trail) :
    trimChars (lead ++ part ++ trail) = part := by
  rw [trimChars, List.append_assoc, List.dropWhile_append_of_pos hlead]
  cases part with
  | nil =>
      rw [List.nil_append, dropWhile_eq_nil_iff_allBlank.mpr htrail]
      rfl
  | cons c rest =>
      have hdrop : (c :: rest ++ trail).dropWhile isBlank = c :: rest ++ trail :=
        dropWhile_of_head? hpart.1
      rw [hdrop]
      exact trimEndChars_append htrail hpart.2

theorem trimChars_eq_nil {cs : List Char} (h : AllBlank cs) : trimChars cs = [] := by
  have htrim := trimChars_append h isTrimmed_nil allBlank_nil
  rwa [List.append_nil, List.append_nil] at htrim

/-- What is left of a text at its end after trimming, and the blanks that were there. -/
theorem exists_trimEndChars (cs : List Char) :
    ∃ trail, AllBlank trail ∧ cs = trimEndChars cs ++ trail ∧
      ∀ c ∈ (trimEndChars cs).getLast?, isBlank c = false := by
  refine ⟨(cs.reverse.takeWhile isBlank).reverse, fun c hc => ?_, ?_, fun c hc => ?_⟩
  · exact allBlank_takeWhile _ c (List.mem_reverse.mp hc)
  · rw [trimEndChars, ← List.reverse_append, List.takeWhile_append_dropWhile, List.reverse_reverse]
  · rw [trimEndChars, List.getLast?_reverse] at hc
    exact not_of_mem_head?_dropWhile isBlank _ c hc

/-- **A text is its trimmed part with blanks around it.** -/
theorem exists_trimChars (cs : List Char) :
    ∃ lead trail, AllBlank lead ∧ AllBlank trail ∧ cs = lead ++ trimChars cs ++ trail ∧
      IsTrimmed (trimChars cs) := by
  obtain ⟨trail, htrail, heq, hlast⟩ := exists_trimEndChars (cs.dropWhile isBlank)
  refine ⟨cs.takeWhile isBlank, trail, allBlank_takeWhile cs, htrail, ?_, fun c hc => ?_, hlast⟩
  · rw [List.append_assoc, trimChars, ← heq, List.takeWhile_append_dropWhile]
  · -- the trimmed part begins as the text without the blanks in front
    refine not_of_mem_head?_dropWhile isBlank cs c ?_
    rw [trimChars] at hc
    rw [heq, List.head?_append, hc]
    rfl

theorem isTrimmed_trimChars (cs : List Char) : IsTrimmed (trimChars cs) := by
  obtain ⟨-, -, -, -, -, h⟩ := exists_trimChars cs
  exact h

/-- Only blanks are lost by trimming. -/
theorem solid_trimChars (cs : List Char) : solid (trimChars cs) = solid cs := by
  obtain ⟨lead, trail, hlead, htrail, heq, -⟩ := exists_trimChars cs
  calc solid (trimChars cs)
      = solid (lead ++ trimChars cs ++ trail) := by
        rw [solid_append, solid_append, hlead.solid_eq, htrail.solid_eq, List.nil_append,
          List.append_nil]
    _ = solid cs := by rw [← heq]

theorem trimChars_eq_nil_iff {cs : List Char} : trimChars cs = [] ↔ AllBlank cs := by
  refine ⟨fun h => ?_, trimChars_eq_nil⟩
  rw [← solid_eq_nil_iff, ← solid_trimChars, h]
  rfl

/-! ## Parts and gaps -/

section Gaps

variable {IsGap : List Char → Prop}

/-- The characters are the parts with gaps between them; blanks may follow the last part. -/
inductive Laid (IsGap : List Char → Prop) : List Char → List (List Char) → Prop
  | none : Laid IsGap [] []
  | last {part trail : List Char} (blank : AllBlank trail) : Laid IsGap (part ++ trail) [part]
  /-- A part is followed by a gap and further parts. -/
  | more {part gap rest next : List Char} {parts : List (List Char)} (isGap : IsGap gap)
      (others : Laid IsGap rest (next :: parts)) :
      Laid IsGap (part ++ gap ++ rest) (part :: next :: parts)

/-- **The parts of a text:** they are spread over it, with gaps between them and blanks around
them. -/
def Spread (IsGap : List Char → Prop) (cs : List Char) (parts : List (List Char)) : Prop :=
  ∃ lead body, AllBlank lead ∧ Laid IsGap body parts ∧ cs = lead ++ body

theorem spread_of_allBlank {cs : List Char} (h : AllBlank cs) : Spread IsGap cs [] :=
  ⟨cs, [], h, .none, (List.append_nil cs).symm⟩

theorem Spread.allBlank {cs : List Char} (h : Spread IsGap cs []) : AllBlank cs := by
  obtain ⟨lead, body, hlead, hlaid, rfl⟩ := h
  cases hlaid
  rwa [List.append_nil]

/-- Blanks in front do not count. -/
theorem Spread.blank_append {lead cs : List Char} {parts : List (List Char)} (hlead : AllBlank lead)
    (h : Spread IsGap cs parts) : Spread IsGap (lead ++ cs) parts := by
  obtain ⟨lead', body, hlead', hlaid, rfl⟩ := h
  exact ⟨lead ++ lead', body, hlead.append hlead', hlaid, (List.append_assoc ..).symm⟩

theorem Laid.solid_eq (hgap : ∀ gap, IsGap gap → AllBlank gap) {body : List Char}
    {parts : List (List Char)} (h : Laid IsGap body parts) : solid body = solid parts.flatten := by
  induction h with
  | none => rfl
  | last blank => simp [solid_append, blank.solid_eq]
  | more isGap _ ih =>
      rw [List.flatten_cons, solid_append, solid_append, solid_append, ih, (hgap _ isGap).solid_eq,
        List.append_nil]

/-- **The parts have all characters of a text that are not blank.** -/
theorem Spread.solid_eq (hgap : ∀ gap, IsGap gap → AllBlank gap) {cs : List Char}
    {parts : List (List Char)} (h : Spread IsGap cs parts) : solid cs = solid parts.flatten := by
  obtain ⟨lead, body, hlead, hlaid, rfl⟩ := h
  rw [solid_append, hlead.solid_eq, List.nil_append, hlaid.solid_eq hgap]

/-- The first part comes first. -/
theorem Laid.head?_eq {body part : List Char} {parts : List (List Char)}
    (h : Laid IsGap body (part :: parts)) (hpart : part ≠ []) : body.head? = part.head? := by
  cases h with
  | last => rw [List.head?_append_of_ne_nil part hpart]
  | more => rw [List.append_assoc, List.head?_append_of_ne_nil part hpart]

/-- What stands between the parts where a text is put together from them is their gaps. -/
theorem laid_intercalate {gap : List Char} (hgap : IsGap gap) :
    (parts : List (List Char)) → Laid IsGap (gap.intercalate parts) parts
  | [] => .none
  | [part] => by
      have hlast : Laid IsGap (part ++ []) [part] := .last allBlank_nil
      rw [List.append_nil] at hlast
      rwa [List.intercalate_singleton]
  | part :: next :: rest => by
      rw [List.intercalate_cons_cons]
      exact .more hgap (laid_intercalate hgap (next :: rest))

/-- A text put together from trimmed parts is trimmed. -/
theorem isTrimmed_intercalate {gap : List Char} {parts : List (List Char)}
    (hparts : ∀ part ∈ parts, part ≠ [] ∧ IsTrimmed part) : IsTrimmed (gap.intercalate parts) := by
  induction parts with
  | nil => exact isTrimmed_nil
  | cons part rest ih =>
      obtain ⟨⟨hne, htrimmed⟩, hrest⟩ := List.forall_mem_cons.mp hparts
      cases rest with
      | nil => rwa [List.intercalate_singleton]
      | cons next rest =>
          have hnext : gap.intercalate (next :: rest) ≠ [] := by
            have hlaid : Laid (fun _ => True) (gap.intercalate (next :: rest)) (next :: rest) :=
              laid_intercalate trivial _
            have hhead := hlaid.head?_eq (hrest next List.mem_cons_self).1
            intro hnil
            rw [hnil] at hhead
            exact (hrest next List.mem_cons_self).1 (List.head?_eq_none_iff.mp hhead.symm)
          rw [List.intercalate_cons_cons, List.append_assoc]
          constructor
          · rw [List.head?_append_of_ne_nil _ hne]
            exact htrimmed.1
          · rw [List.getLast?_append_of_ne_nil _ (List.append_ne_nil_of_right_ne_nil _ hnext),
              List.getLast?_append_of_ne_nil _ hnext]
            exact (ih hrest).2

end Gaps

/-! ## Words -/

def IsRun (cs : List Char) : Prop := cs ≠ [] ∧ AllBlank cs

/-- A word: characters without a blank. -/
def IsWord (cs : List Char) : Prop := cs ≠ [] ∧ ∀ c ∈ cs, isBlank c = false

theorem IsWord.isTrimmed {cs : List Char} (h : IsWord cs) : IsTrimmed cs :=
  ⟨fun c hc => h.2 c (List.mem_of_mem_head? hc), fun c hc => h.2 c (List.mem_of_getLast? hc)⟩

/-- **Words are words.** -/
theorem isWord_of_mem_words {cs word : List Char} (h : word ∈ words cs) : IsWord word := by
  fun_induction words cs with
  | case1 => cases h
  | case2 cs c rest hdrop ih =>
      rcases List.mem_cons.mp h with rfl | h
      · have hfirst : isBlank c = false :=
          not_of_mem_head?_dropWhile isBlank cs c (by rw [hdrop]; rfl)
        have hinner : ∀ d ∈ rest.takeWhile (!isBlank ·), isBlank d = false := by
          intro d hd
          simpa using List.all_eq_true.mp List.all_takeWhile d hd
        exact ⟨List.cons_ne_nil _ _, List.forall_mem_cons.mpr ⟨hfirst, hinner⟩⟩
      · exact ih h

/-- **The words are the parts of a text between runs of blanks.** -/
theorem spread_words (cs : List Char) : Spread IsRun cs (words cs) := by
  fun_induction words cs with
  | case1 cs hdrop => exact spread_of_allBlank (dropWhile_eq_nil_iff_allBlank.mp hdrop)
  | case2 cs c rest hdrop ih =>
      have hcs : cs = cs.takeWhile isBlank ++
          (c :: rest.takeWhile (!isBlank ·) ++ rest.dropWhile (!isBlank ·)) := by
        rw [List.cons_append, List.takeWhile_append_dropWhile, ← hdrop,
          List.takeWhile_append_dropWhile]
      refine ⟨cs.takeWhile isBlank, _, allBlank_takeWhile cs, ?_, hcs⟩
      cases hwords : words (rest.dropWhile (!isBlank ·)) with
      | nil =>
          rw [hwords] at ih
          exact .last ih.allBlank
      | cons next others =>
          obtain ⟨gap, body, hgap, hlaid, hrest⟩ := ih
          rw [hwords] at hlaid
          have hnext : IsWord next := isWord_of_mem_words (hwords ▸ List.mem_cons_self)
          -- a word ends before a blank, and the next one does not begin with one
          have hne : gap ≠ [] := by
            rintro rfl
            obtain ⟨d, more, rfl⟩ := List.exists_cons_of_ne_nil hnext.1
            have hhead : d ∈ (rest.dropWhile (!isBlank ·)).head? := by
              rw [hrest, List.nil_append, hlaid.head?_eq hnext.1]
              rfl
            have hblank := not_of_mem_head?_dropWhile (!isBlank ·) rest d hhead
            rw [hnext.2 d List.mem_cons_self] at hblank
            cases hblank
          rw [hrest, ← List.append_assoc]
          exact .more ⟨hne, hgap⟩ hlaid

/-! ## Uniform space -/

/-- **A text with its space made uniform.** -/
structure IsUniform (text uniform : List Char) : Prop where
  /-- The characters that are not blank are those of the text, in order. -/
  kept : solid uniform = solid text
  /-- Where the text has a run of blanks between two words there is one space. -/
  spaced : ∃ parts, Spread IsRun text parts ∧ (∀ part ∈ parts, IsWord part) ∧
    uniform = [' '].intercalate parts
  /-- There is no blank at either end. -/
  trimmed : IsTrimmed uniform

theorem isUniform_normalizeSpace (s : String) : IsUniform s.toList (normalizeSpace s).toList := by
  have hwords : ∀ word ∈ words s.toList, IsWord word := fun _ => isWord_of_mem_words
  have hblank : ∀ gap, IsRun gap → AllBlank gap := fun _ h => h.2
  have hrun : IsRun [' '] := ⟨List.cons_ne_nil _ _, by decide⟩
  rw [normalizeSpace, String.toList_ofList]
  refine ⟨?_, ⟨words s.toList, spread_words _, hwords, rfl⟩, ?_⟩
  · rw [(spread_words s.toList).solid_eq hblank, (laid_intercalate hrun _).solid_eq hblank]
  · apply isTrimmed_intercalate
    intro word hword
    exact ⟨(hwords word hword).1, (hwords word hword).isTrimmed⟩

end OscalValidation.Text
