import OscalValidation.Proofs.Text.Spacing
import OscalValidation.Text.Paragraph

set_option autoImplicit false

/-! # Paragraphs and the blank lines between them

A text consists of paragraphs with blank lines between them, in one way only
(`prose_eq_iff`): no paragraph is empty, none begins or ends with a blank, and none has a blank
line in it. So paragraphs that are put together with blank lines are found again
(`areParagraphsOf_paragraphs`).
-/

namespace OscalValidation.Text

/-! ## Blank lines -/

/-- **A blank line in a text:** two line feeds with nothing but blanks between them. -/
def HasBlankLine (cs : List Char) : Prop :=
  ∃ before between after, AllBlank between ∧ cs = before ++ '\n' :: between ++ '\n' :: after

/-- What stands between two paragraphs: blanks with a blank line among them. -/
def IsBreak (gap : List Char) : Prop := AllBlank gap ∧ HasBlankLine gap

theorem HasBlankLine.append {cs : List Char} (h : HasBlankLine cs) (lead trail : List Char) :
    HasBlankLine (lead ++ cs ++ trail) := by
  obtain ⟨before, between, after, hblank, rfl⟩ := h
  exact ⟨lead ++ before, between, after ++ trail, hblank, by simp⟩

theorem not_hasBlankLine_nil : ¬ HasBlankLine [] := by
  rintro ⟨before, between, after, -, h⟩
  cases before <;> cases h

/-- There is a line feed among the blanks in front. -/
theorem mem_takeWhile_iff {cs : List Char} :
    '\n' ∈ cs.takeWhile isBlank ↔
      ∃ between after, AllBlank between ∧ cs = between ++ '\n' :: after := by
  constructor
  · intro h
    obtain ⟨between, after, heq⟩ := List.append_of_mem h
    refine ⟨between, after ++ cs.dropWhile isBlank, fun c hc => ?_, ?_⟩
    · exact allBlank_takeWhile cs c (heq ▸ List.mem_append_left _ hc)
    · calc cs = cs.takeWhile isBlank ++ cs.dropWhile isBlank :=
            List.takeWhile_append_dropWhile.symm
        _ = between ++ '\n' :: (after ++ cs.dropWhile isBlank) := by rw [heq]; simp
  · rintro ⟨between, after, hblank, rfl⟩
    rw [List.takeWhile_append_of_pos hblank, List.takeWhile_cons, if_pos (by decide)]
    simp

/-- A blank line is at the front or further on. -/
theorem hasBlankLine_cons_iff {c : Char} {rest : List Char} :
    HasBlankLine (c :: rest) ↔
      (c = '\n' ∧ '\n' ∈ rest.takeWhile isBlank) ∨ HasBlankLine rest := by
  rw [mem_takeWhile_iff]
  constructor
  · rintro ⟨before, between, after, hblank, heq⟩
    cases before with
    | nil =>
        obtain ⟨rfl, rfl⟩ := List.cons_eq_cons.mp heq
        exact .inl ⟨rfl, between, after, hblank, rfl⟩
    | cons d before =>
        obtain ⟨-, rfl⟩ := List.cons_eq_cons.mp heq
        exact .inr ⟨before, between, after, hblank, rfl⟩
  · rintro (⟨rfl, between, after, hblank, rfl⟩ | h)
    · exact ⟨[], between, after, hblank, rfl⟩
    · simpa using h.append [c] []

/-! ## Pieces -/

/-- The pieces of a text, with breaks between them. -/
inductive Cut : List Char → List (List Char) → Prop
  | last (piece : List Char) : Cut piece [piece]
  /-- A piece is followed by a break and further pieces. -/
  | more {piece gap rest : List Char} {pieces : List (List Char)} (isBreak : IsBreak gap)
      (others : Cut rest pieces) : Cut (piece ++ gap ++ rest) (piece :: pieces)

theorem splitBlankLines_of_break {rest : List Char} (h : '\n' ∈ rest.takeWhile isBlank) :
    splitBlankLines ('\n' :: rest) = [] :: splitBlankLines (rest.dropWhile isBlank) := by
  rw [splitBlankLines, if_pos ⟨rfl, h⟩]

theorem splitBlankLines_ne_nil (cs : List Char) : splitBlankLines cs ≠ [] := by
  unfold splitBlankLines
  split
  · exact List.cons_ne_nil _ _
  · split
    · exact List.cons_ne_nil _ _
    · split <;> exact List.cons_ne_nil _ _

theorem splitBlankLines_of_not_break {c : Char} {rest : List Char}
    (h : ¬ (c = '\n' ∧ '\n' ∈ rest.takeWhile isBlank)) :
    splitBlankLines (c :: rest) = (splitBlankLines rest).modifyHead (c :: ·) := by
  rw [splitBlankLines, if_neg h]
  split
  · next hnil => exact absurd hnil (splitBlankLines_ne_nil rest)
  · next heq => rw [heq, List.modifyHead_cons]

/-- The blanks at the front with two line feeds among them are a break. -/
theorem isBreak_takeWhile {rest : List Char} (h : '\n' ∈ rest.takeWhile isBlank) :
    IsBreak ('\n' :: rest.takeWhile isBlank) := by
  refine ⟨List.forall_mem_cons.mpr ⟨by decide, allBlank_takeWhile rest⟩, ?_⟩
  rw [hasBlankLine_cons_iff]
  refine .inl ⟨rfl, ?_⟩
  rwa [List.takeWhile_eq_self_iff.mpr (allBlank_takeWhile rest)]

/-- **The pieces of a text have breaks between them.** -/
theorem cut_splitBlankLines (cs : List Char) : Cut cs (splitBlankLines cs) := by
  fun_induction splitBlankLines cs with
  | case1 => exact .last []
  | case2 c rest h ih =>
      obtain ⟨rfl, h⟩ := h
      have hcut := @Cut.more [] _ _ _ (isBreak_takeWhile h) ih
      rwa [List.nil_append, List.cons_append, List.takeWhile_append_dropWhile] at hcut
  | case3 c rest _ hnil _ => exact absurd hnil (splitBlankLines_ne_nil rest)
  | case4 c rest _ piece pieces heq ih =>
      rw [heq] at ih
      cases ih with
      | last => exact .last _
      | more isBreak others => exact @Cut.more (c :: piece) _ _ _ isBreak others

theorem Cut.exists_append {cs piece : List Char} {pieces : List (List Char)}
    (h : Cut cs (piece :: pieces)) : ∃ after, cs = piece ++ after := by
  cases h with
  | last => exact ⟨[], (List.append_nil _).symm⟩
  | more => exact ⟨_, List.append_assoc ..⟩

/-- What is in a piece is in the text. -/
theorem Cut.subset {cs : List Char} {pieces : List (List Char)} (h : Cut cs pieces) :
    ∀ piece ∈ pieces, piece ⊆ cs := by
  induction h with
  | last piece =>
      intro found hfound
      rw [List.mem_singleton.mp hfound]
      exact List.Subset.refl _
  | more _ _ ih =>
      refine List.forall_mem_cons.mpr ⟨?_, fun found hfound => ?_⟩
      · exact List.subset_append_of_subset_left _ (List.subset_append_left _ _)
      · exact List.subset_append_of_subset_right _ (ih found hfound)

/-- **No piece has a blank line in it.** -/
theorem not_hasBlankLine_of_mem_splitBlankLines (cs : List Char) :
    ∀ piece ∈ splitBlankLines cs, ¬ HasBlankLine piece := by
  fun_induction splitBlankLines cs with
  | case1 => simpa using not_hasBlankLine_nil
  | case2 c rest h ih => exact List.forall_mem_cons.mpr ⟨not_hasBlankLine_nil, ih⟩
  | case3 c rest _ hnil _ => exact absurd hnil (splitBlankLines_ne_nil rest)
  | case4 c rest h piece pieces heq ih =>
      rw [heq] at ih
      obtain ⟨hpiece, hpieces⟩ := List.forall_mem_cons.mp ih
      refine List.forall_mem_cons.mpr ⟨fun hline => ?_, hpieces⟩
      rcases hasBlankLine_cons_iff.mp hline with ⟨rfl, hfeed⟩ | hline
      · -- a blank line at the front of the piece is one at the front of the text
        obtain ⟨after, hrest⟩ := (heq ▸ cut_splitBlankLines rest).exists_append
        obtain ⟨between, tail, hblank, rfl⟩ := mem_takeWhile_iff.mp hfeed
        refine h ⟨rfl, mem_takeWhile_iff.mpr ⟨between, tail ++ after, hblank, ?_⟩⟩
        rw [hrest, List.append_assoc, List.cons_append]
      · exact hpiece hline

/-! ## Paragraphs that are not empty -/

/-- A paragraph: it is not empty, no blank is at either end, and it has no blank line in it. -/
structure IsParagraph (cs : List Char) : Prop where
  ne_nil : cs ≠ []
  /-- No blank is at either end. -/
  trimmed : IsTrimmed cs
  unbroken : ¬ HasBlankLine cs

/-- Pieces without the blanks around them, and without those that are blank as a whole. -/
def trimPieces (pieces : List (List Char)) : List (List Char) :=
  (pieces.map trimChars).filter (!·.isEmpty)

/-- **The paragraphs of a text,** none for a text that is blank as a whole. -/
def prose (cs : List Char) : List (List Char) := trimPieces (splitBlankLines cs)

theorem trimPieces_cons (piece : List Char) (pieces : List (List Char)) :
    trimPieces (piece :: pieces) =
      if trimChars piece = [] then trimPieces pieces else trimChars piece :: trimPieces pieces := by
  rw [trimPieces, List.map_cons, List.filter_cons]
  cases trimChars piece <;> rfl

theorem isParagraph_of_mem_prose {cs : List Char} : ∀ part ∈ prose cs, IsParagraph part := by
  intro part hpart
  obtain ⟨hmem, hne⟩ := List.mem_filter.mp hpart
  obtain ⟨piece, hpiece, rfl⟩ := List.mem_map.mp hmem
  refine ⟨by simpa using hne, isTrimmed_trimChars piece, fun hline => ?_⟩
  obtain ⟨lead, trail, -, -, heq, -⟩ := exists_trimChars piece
  apply not_hasBlankLine_of_mem_splitBlankLines cs piece hpiece
  rw [heq]
  exact hline.append lead trail

/-- Trimmed pieces are spread over a text as its pieces are. -/
theorem Cut.spread {cs : List Char} {pieces : List (List Char)} (h : Cut cs pieces) :
    Spread IsBreak cs (trimPieces pieces) := by
  induction h with
  | last piece =>
      rw [trimPieces_cons]
      split
      · next hnil => exact spread_of_allBlank (trimChars_eq_nil_iff.mp hnil)
      · obtain ⟨lead, trail, hlead, htrail, heq, -⟩ := exists_trimChars piece
        refine ⟨lead, trimChars piece ++ trail, hlead, .last htrail, ?_⟩
        rw [← List.append_assoc, ← heq]
  | @more piece gap rest pieces isBreak others ih =>
      rw [trimPieces_cons]
      split
      · next hnil =>
        exact ih.blank_append ((trimChars_eq_nil_iff.mp hnil).append isBreak.1)
      · obtain ⟨lead, trail, hlead, htrail, heq, -⟩ := exists_trimChars piece
        have hcs : piece ++ gap ++ rest = lead ++ (trimChars piece ++ trail ++ gap ++ rest) := by
          conv_lhs => rw [heq]
          simp only [List.append_assoc]
        cases hparts : trimPieces pieces with
        | nil =>
            -- nothing but blanks follows
            rw [hparts] at ih
            refine ⟨lead, trimChars piece ++ (trail ++ gap ++ rest), hlead,
              .last ((htrail.append isBreak.1).append ih.allBlank), ?_⟩
            rw [hcs]
            simp only [List.append_assoc]
        | cons next parts =>
            rw [hparts] at ih
            obtain ⟨lead', body, hlead', hlaid, rfl⟩ := ih
            refine ⟨lead, trimChars piece ++ (trail ++ gap ++ lead') ++ body, hlead,
              .more ⟨(htrail.append isBreak.1).append hlead', ?_⟩ hlaid, ?_⟩
            · exact isBreak.2.append trail lead'
            · rw [hcs]
              simp only [List.append_assoc]

theorem spread_prose (cs : List Char) : Spread IsBreak cs (prose cs) :=
  (cut_splitBlankLines cs).spread

/-! ## Only one way -/

/-- Blanks in front do not matter. -/
theorem prose_dropWhile (cs : List Char) : prose (cs.dropWhile isBlank) = prose cs := by
  induction cs with
  | nil => rfl
  | cons c rest ih =>
      by_cases hc : isBlank c = true
      · rw [List.dropWhile_cons, if_pos hc]
        by_cases hbreak : c = '\n' ∧ '\n' ∈ rest.takeWhile isBlank
        · obtain ⟨rfl, hbreak⟩ := hbreak
          conv_rhs => rw [prose, splitBlankLines_of_break hbreak, trimPieces_cons]
          rfl
        · obtain ⟨piece, pieces, heq⟩ := List.exists_cons_of_ne_nil (splitBlankLines_ne_nil rest)
          have htrim : trimChars (c :: piece) = trimChars piece := by
            rw [trimChars, List.dropWhile_cons, if_pos hc, ← trimChars]
          rw [ih, prose, prose, splitBlankLines_of_not_break hbreak, heq, List.modifyHead_cons,
            trimPieces_cons, trimPieces_cons, htrim]
      · rw [List.dropWhile_cons, if_neg hc]

theorem prose_append_of_allBlank {lead : List Char} (hlead : AllBlank lead) (cs : List Char) :
    prose (lead ++ cs) = prose cs := by
  rw [← prose_dropWhile, List.dropWhile_append_of_pos hlead, prose_dropWhile]

/-- **No blank line begins in a paragraph,** whatever follows it. -/
theorem splitBlankLines_append {part : List Char} (hne : part ≠ [])
    (hlast : ∀ c ∈ part.getLast?, isBlank c = false) (hline : ¬ HasBlankLine part)
    (tail : List Char) :
    splitBlankLines (part ++ tail) = (splitBlankLines tail).modifyHead (part ++ ·) := by
  induction part with
  | nil => exact absurd rfl hne
  | cons c rest ih =>
      rw [hasBlankLine_cons_iff, not_or] at hline
      cases rest with
      | nil =>
          -- the only character is the last one, and it is not blank
          have hc : isBlank c = false := hlast c rfl
          refine splitBlankLines_of_not_break fun hbreak => ?_
          rw [hbreak.1] at hc
          cases hc
      | cons d rest =>
          have hlast' : ∀ e ∈ (d :: rest).getLast?, isBlank e = false := hlast
          have hnone : ¬ (c = '\n' ∧ '\n' ∈ (d :: rest ++ tail).takeWhile isBlank) := by
            rintro ⟨rfl, hfeed⟩
            refine hline.1 ⟨rfl, ?_⟩
            rwa [takeWhile_append_of_getLast? (List.cons_ne_nil d rest) hlast'] at hfeed
          rw [List.cons_append, splitBlankLines_of_not_break hnone,
            ih (List.cons_ne_nil d rest) hlast' hline.2, List.modifyHead_modifyHead]
          rfl

/-- A break ends a piece, and what follows it is divided on its own. -/
theorem exists_splitBlankLines_break {gap : List Char} (h : IsBreak gap) (rest : List Char) :
    ∃ trail pieces, AllBlank trail ∧ splitBlankLines (gap ++ rest) = trail :: pieces ∧
      trimPieces pieces = prose rest := by
  obtain ⟨hblank, hline⟩ := h
  induction gap with
  | nil => exact absurd hline not_hasBlankLine_nil
  | cons c gap ih =>
      obtain ⟨hc, hgap⟩ := List.forall_mem_cons.mp hblank
      by_cases hbreak : c = '\n' ∧ '\n' ∈ (gap ++ rest).takeWhile isBlank
      · obtain ⟨rfl, hbreak⟩ := hbreak
        refine ⟨[], _, allBlank_nil, splitBlankLines_of_break hbreak, ?_⟩
        exact (prose_dropWhile _).trans (prose_append_of_allBlank hgap rest)
      · have hline' : HasBlankLine gap := by
          rcases hasBlankLine_cons_iff.mp hline with ⟨rfl, hfeed⟩ | hline
          · refine absurd ⟨rfl, ?_⟩ hbreak
            rw [List.takeWhile_append_of_pos hgap]
            exact List.mem_append_left _ ((List.takeWhile_sublist _).subset hfeed)
          · exact hline
        obtain ⟨trail, pieces, htrail, heq, hpieces⟩ := ih hgap hline'
        refine ⟨c :: trail, pieces, List.forall_mem_cons.mpr ⟨hc, htrail⟩, ?_, hpieces⟩
        rw [List.cons_append, splitBlankLines_of_not_break hbreak, heq, List.modifyHead_cons]

/-- The first paragraph is what stands before the blanks in front of the others. -/
theorem prose_append {part tail trail : List Char} {pieces : List (List Char)}
    (hpart : IsParagraph part) (htail : splitBlankLines tail = trail :: pieces)
    (htrail : AllBlank trail) : prose (part ++ tail) = part :: trimPieces pieces := by
  have htrim : trimChars (part ++ trail) = part := by
    have h := trimChars_append allBlank_nil hpart.trimmed htrail
    rwa [List.nil_append] at h
  rw [prose, splitBlankLines_append hpart.ne_nil hpart.trimmed.2 hpart.unbroken, htail,
    List.modifyHead_cons, trimPieces_cons, htrim, if_neg hpart.ne_nil]

theorem trimPieces_of_allBlank {cs : List Char} {pieces : List (List Char)} (hcut : Cut cs pieces)
    (h : AllBlank cs) : trimPieces pieces = [] := by
  rw [trimPieces, List.filter_eq_nil_iff]
  intro part hpart
  obtain ⟨piece, hpiece, rfl⟩ := List.mem_map.mp hpart
  have hblank : AllBlank piece := fun c hc => h c (hcut.subset piece hpiece hc)
  rw [trimChars_eq_nil hblank]
  exact nofun

theorem Laid.prose_eq {body : List Char} {parts : List (List Char)} (h : Laid IsBreak body parts)
    (hparts : ∀ part ∈ parts, IsParagraph part) : prose body = parts := by
  induction h with
  | none =>
      rw [prose, splitBlankLines]
      rfl
  | @last part trail blank =>
      obtain ⟨first, pieces, heq⟩ := List.exists_cons_of_ne_nil (splitBlankLines_ne_nil trail)
      have hcut := heq ▸ cut_splitBlankLines trail
      have hfirst : AllBlank first := fun c hc =>
        blank c (hcut.subset first List.mem_cons_self hc)
      have hnone := trimPieces_of_allBlank hcut blank
      rw [trimPieces_cons, if_pos (trimChars_eq_nil hfirst)] at hnone
      rw [prose_append (hparts part List.mem_cons_self) heq hfirst, hnone]
  | @more part gap rest next parts isGap others ih =>
      obtain ⟨hpart, hothers⟩ := List.forall_mem_cons.mp hparts
      obtain ⟨trail, pieces, htrail, heq, hpieces⟩ := exists_splitBlankLines_break isGap rest
      rw [List.append_assoc, prose_append hpart heq htrail, hpieces, ih hothers]

/-- **A text consists of its paragraphs in one way only.** -/
theorem prose_eq_iff {cs : List Char} {parts : List (List Char)} :
    prose cs = parts ↔ Spread IsBreak cs parts ∧ ∀ part ∈ parts, IsParagraph part := by
  constructor
  · rintro rfl
    exact ⟨spread_prose cs, isParagraph_of_mem_prose⟩
  · rintro ⟨⟨lead, body, hlead, hlaid, rfl⟩, hparts⟩
    rw [prose_append_of_allBlank hlead, hlaid.prose_eq hparts]

/-! ## The paragraphs of a text -/

theorem solid_prose (cs : List Char) : solid (prose cs).flatten = solid cs :=
  ((spread_prose cs).solid_eq fun _ h => h.1).symm

theorem prose_eq_nil_iff {cs : List Char} : prose cs = [] ↔ AllBlank cs := by
  constructor
  · intro h
    rw [← solid_eq_nil_iff, ← solid_prose, h]
    rfl
  · intro h
    exact prose_eq_iff.mpr ⟨spread_of_allBlank h, nofun⟩

/-- Only a text that is blank as a whole has an empty paragraph. -/
theorem paragraphsOfChars_eq (cs : List Char) :
    paragraphsOfChars cs = if AllBlank cs then [[]] else prose cs := by
  have hcases : paragraphsOfChars cs = if prose cs = [] then [trimChars cs] else prose cs := by
    rw [paragraphsOfChars, ← trimPieces, ← prose]
    cases prose cs <;> rfl
  rw [hcases]
  by_cases h : AllBlank cs
  · rw [if_pos (prose_eq_nil_iff.mpr h), if_pos h, trimChars_eq_nil h]
  · rw [if_neg (mt prose_eq_nil_iff.mp h), if_neg h]

theorem paragraphs_of_allBlank {s : String} (h : AllBlank s.toList) : paragraphs s = [""] := by
  rw [paragraphs, paragraphsOfChars_eq, if_pos h]
  rfl

theorem paragraphs_of_not_allBlank {s : String} (h : ¬ AllBlank s.toList) :
    paragraphs s = (prose s.toList).map String.ofList := by
  rw [paragraphs, paragraphsOfChars_eq, if_neg h]

/-- Two line feeds are a break. -/
theorem isBreak_lineFeeds : IsBreak ['\n', '\n'] :=
  ⟨by decide, [], [], [], allBlank_nil, rfl⟩

/-- **The paragraphs of a text.** -/
structure AreParagraphsOf (text : String) (found : List String) : Prop where
  ne_nil : found ≠ []
  /-- No blank is at either end of one. -/
  trimmed : ∀ part ∈ found, IsTrimmed part.toList
  /-- None has a blank line in it. -/
  unbroken : ∀ part ∈ found, ¬ HasBlankLine part.toList
  /-- Together they have all characters of the text that are not blank, in order. -/
  kept : solid (String.join found).toList = solid text.toList
  /-- An empty one is the only one, and the text is blank as a whole. -/
  alone : "" ∈ found → found = [""] ∧ AllBlank text.toList
  /-- In any other text there are blank lines between them and no other characters. -/
  divided : ¬ AllBlank text.toList → Spread IsBreak text.toList (found.map String.toList)
  /-- Put together with blank lines they are found again. -/
  again : paragraphs ("\n\n".intercalate found) = found

/-- **Every text has paragraphs,** and they are found again. -/
theorem areParagraphsOf_paragraphs (s : String) : AreParagraphsOf s (paragraphs s) := by
  by_cases hblank : AllBlank s.toList
  · rw [paragraphs_of_allBlank hblank]
    constructor
    · exact List.cons_ne_nil _ _
    · exact List.forall_mem_singleton.mpr isTrimmed_nil
    · exact List.forall_mem_singleton.mpr not_hasBlankLine_nil
    · rw [hblank.solid_eq]
      rfl
    · exact fun _ => ⟨rfl, hblank⟩
    · exact fun h => absurd hblank h
    · exact paragraphs_of_allBlank allBlank_nil
  · have hprose : ∀ part ∈ prose s.toList, IsParagraph part := isParagraph_of_mem_prose
    have hne : prose s.toList ≠ [] := mt prose_eq_nil_iff.mp hblank
    have hchars : ((prose s.toList).map String.ofList).map String.toList = prose s.toList := by
      rw [List.map_map]
      exact List.map_id'' (fun _ => String.toList_ofList) _
    have heach : ∀ part ∈ (prose s.toList).map String.ofList, IsParagraph part.toList := by
      intro part hpart
      obtain ⟨cs, hcs, rfl⟩ := List.mem_map.mp hpart
      rw [String.toList_ofList]
      exact hprose cs hcs
    rw [paragraphs_of_not_allBlank hblank]
    constructor
    · exact mt List.map_eq_nil_iff.mp hne
    · exact fun part hpart => (heach part hpart).trimmed
    · exact fun part hpart => (heach part hpart).unbroken
    · rw [String.toList_join, List.flatMap_def, hchars, solid_prose]
    · exact fun hempty => absurd rfl (heach "" hempty).ne_nil
    · intro _
      rw [hchars]
      exact spread_prose s.toList
    · -- a blank line of our own is as good a break as those of the text
      have hjoined : ("\n\n".intercalate ((prose s.toList).map String.ofList)).toList =
          ['\n', '\n'].intercalate (prose s.toList) := by
        rw [String.toList_intercalate, hchars]
        rfl
      have hagain := (laid_intercalate isBreak_lineFeeds (prose s.toList)).prose_eq hprose
      rw [← hjoined] at hagain
      rw [paragraphs_of_not_allBlank, hagain]
      rwa [← prose_eq_nil_iff, hagain]

example : paragraphs " a\n b\n \t\n\n c\n\n" = ["a\n b", "c"] := by decide +kernel

end OscalValidation.Text
