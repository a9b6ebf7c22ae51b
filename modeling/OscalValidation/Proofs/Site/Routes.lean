import OscalValidation.Proofs.Attempts
import OscalValidation.Proofs.Site.Matching
import OscalValidation.Site.Route

set_option autoImplicit false

/-! # The grammar of addresses

`Route.IsAddressedBy` says which addresses lead to a page, without the table of patterns. An
address leads to the page that it is said to lead to and to no other, whatever the order of the
table, since no address matches two of its entries (`table_exclusive`). Main statement:
`routeOf?_grammar`.
-/

namespace OscalValidation.Site

/-! ## The grammar -/

/-- **The characters spell the text,** and a slash may follow. -/
def SpellsLine (text : String) (cs : List Char) : Prop :=
  ∃ stem, Spells text.toList stem ∧ (cs = stem ∨ cs = stem ++ ['/'])

/-- The address has a first segment, and after it the tail. -/
def HasSegment (segment : List Char) (tail address : String) : Prop :=
  ∃ rest, address.toList = "#/".toList ++ (segment ++ rest) ∧ segment ≠ [] ∧ '/' ∉ segment ∧
    SpellsLine tail rest

/-- **The address names a ruleset before the tail,** whatever the case of its name and the blanks
around it. -/
def NamesRuleset (ruleset : Ruleset) (tail address : String) : Prop :=
  ∃ segment, HasSegment segment tail address ∧
    normalizeTag (String.ofList segment) = ruleset.key

/-- **The addresses of a page.** -/
def Route.IsAddressedBy : Route → String → Prop
  | home, address => address = "#/"
  | summary ruleset, address => NamesRuleset ruleset "/documents" address
  | document type ruleset, address => NamesRuleset ruleset ("/documents/" ++ type.slug) address
  | developers, address => SpellsLine "#/developers" address.toList

/-! ## The entries of the table -/

/-- The pattern of a text without parameters. -/
def textPattern (text : String) (mayEndInSlash : Bool) : AddressPattern :=
  ⟨text.toList.map .fixed, mayEndInSlash⟩

/-- The pattern of a page that each ruleset has, by what follows the ruleset. -/
def rulesetPattern (tail : String) : AddressPattern :=
  ⟨"#/".toList.map .fixed ++ .parameter rulesetParameter :: tail.toList.map .fixed, true⟩

theorem documentPattern_eq (type : DocumentType) :
    documentPattern type = rulesetPattern ("/documents/" ++ type.slug) := by
  cases type <;> decide +kernel

/-- **The table with its patterns read.** -/
theorem table_eq :
    table = [(textPattern "#/" false, .single .home),
      (rulesetPattern "/documents", .perRuleset .summary),
      (rulesetPattern ("/documents/" ++ DocumentType.slug .poam), .perRuleset (.document .poam)),
      (rulesetPattern ("/documents/" ++ DocumentType.slug .sap), .perRuleset (.document .sap)),
      (rulesetPattern ("/documents/" ++ DocumentType.slug .sar), .perRuleset (.document .sar)),
      (rulesetPattern ("/documents/" ++ DocumentType.slug .ssp), .perRuleset (.document .ssp)),
      (textPattern "#/developers" true, .single .developers)] := by
  have hhome : AddressPattern.ofString "#/" = textPattern "#/" false := by decide
  have hsummary : AddressPattern.ofString "#/:ruleset/documents" =
      rulesetPattern "/documents" := by decide
  have hdevelopers : AddressPattern.ofString "#/developers" =
      textPattern "#/developers" true := by decide
  rw [table, hhome, hsummary, hdevelopers, documentPattern_eq, documentPattern_eq,
    documentPattern_eq, documentPattern_eq]

theorem isSeparated_text (text : List Char) : IsSeparated (text.map .fixed) := by
  induction text with
  | nil => trivial
  | cons c rest ih => exact ih

theorem matches_text_end_iff {text : List Char} {mayEndInSlash : Bool} {cs : List Char}
    {values : List (String × String)} :
    Matches mayEndInSlash (text.map .fixed) cs values ↔ values = [] ∧
      ∃ stem, Spells text stem ∧ (cs = stem ∨ mayEndInSlash = true ∧ cs = stem ++ ['/']) := by
  have htext : text.map PatternPart.fixed = text.map .fixed ++ [] := (List.append_nil _).symm
  rw [htext, matches_text_iff]
  simp only [matches_nil_iff]
  constructor
  · rintro ⟨stem, rest, rfl, hstem, rfl, rfl | ⟨allowed, rfl⟩⟩
    · exact ⟨rfl, stem, hstem, Or.inl (List.append_nil _)⟩
    · exact ⟨rfl, stem, hstem, Or.inr ⟨allowed, rfl⟩⟩
  · rintro ⟨rfl, stem, hstem, rfl | ⟨allowed, rfl⟩⟩
    · exact ⟨cs, [], (List.append_nil _).symm, hstem, rfl, Or.inl rfl⟩
    · exact ⟨stem, ['/'], rfl, hstem, rfl, Or.inr ⟨allowed, rfl⟩⟩

theorem spellsLine_iff {text : String} {cs : List Char} {values : List (String × String)} :
    Matches true (text.toList.map .fixed) cs values ↔ values = [] ∧ SpellsLine text cs := by
  rw [matches_text_end_iff]
  simp only [true_and, SpellsLine]

/-- Nothing but the start of all addresses spells it. -/
theorem spells_start_iff {cs : List Char} : Spells "#/".toList cs ↔ cs = "#/".toList := by
  refine ⟨fun h => ?_, fun h => h ▸ spells_self _⟩
  cases h with
  | cons hash rest =>
      cases rest with
      | cons slash rest =>
          cases rest
          rw [Text.eq_of_sameCaseless hash (by decide) (by decide),
            Text.eq_of_sameCaseless slash (by decide) (by decide)]
          rfl

theorem match?_home {address : String} {values : List (String × String)} :
    (textPattern "#/" false).match? address = some values ↔ values = [] ∧ address = "#/" := by
  rw [AddressPattern.match?, textPattern, matchParts_eq_some_iff (isSeparated_text _),
    matches_text_end_iff]
  simp only [Bool.false_eq_true, false_and, or_false, spells_start_iff]
  simp only [exists_eq_left, String.toList_inj]

theorem match?_developers {address : String} {values : List (String × String)} :
    (textPattern "#/developers" true).match? address = some values ↔
      values = [] ∧ SpellsLine "#/developers" address.toList := by
  rw [AddressPattern.match?, textPattern, matchParts_eq_some_iff (isSeparated_text _),
    spellsLine_iff]

/-- **What a page that each ruleset has is found for:** the first segment is the value. -/
theorem match?_ruleset {tail address : String} {values : List (String × String)}
    (htail : tail.toList.head? = some '/') :
    (rulesetPattern tail).match? address = some values ↔
      ∃ segment, HasSegment segment tail address ∧
        values = [(rulesetParameter, String.ofList segment)] := by
  have hseparated : IsSeparated (rulesetPattern tail).parts := by
    refine ⟨Or.inr ?_, isSeparated_text _⟩
    rw [List.head?_map, htail]
    rfl
  rw [AddressPattern.match?, matchParts_eq_some_iff hseparated, rulesetPattern]
  simp only [matches_text_iff, spells_start_iff, matches_parameter_iff, spellsLine_iff]
  constructor
  · rintro ⟨_, _, haddress, rfl, segment, rest, _, rfl, hne, hwhole, rfl, rfl, hrest⟩
    exact ⟨segment, ⟨rest, haddress, hne, hwhole, hrest⟩, rfl⟩
  · rintro ⟨segment, ⟨rest, haddress, hne, hwhole, hrest⟩, rfl⟩
    exact ⟨_, _, haddress, rfl, segment, rest, _, rfl, hne, hwhole, rfl, rfl, hrest⟩

/-! ## No address matches two entries -/

section Lists

variable {α β γ : Type}

/-- What holds of no two entries of a list holds of one at most. -/
theorem length_filter_le_one {p : α → Bool} {xs : List α}
    (h : xs.Pairwise fun a b => ¬ (p a = true ∧ p b = true)) : (xs.filter p).length ≤ 1 := by
  have hfilter := h.filter p
  match hmatch : xs.filter p with
  | [] => exact Nat.zero_le 1
  | [a] => exact Nat.le_refl 1
  | a :: b :: rest =>
      have ha : a ∈ xs.filter p := by simp [hmatch]
      have hb : b ∈ xs.filter p := by simp [hmatch]
      rw [hmatch, List.pairwise_cons] at hfilter
      exact absurd ⟨(List.mem_filter.mp ha).2, (List.mem_filter.mp hb).2⟩
        (hfilter.1 b List.mem_cons_self)

/-- **Where no two entries have a result, the first result is any.** -/
theorem findSome?_eq_some_iff {f : α → Option β} {xs : List α} {result : β}
    (h : xs.Pairwise fun a b => ¬ ((f a).isSome = true ∧ (f b).isSome = true)) :
    xs.findSome? f = some result ↔ ∃ a ∈ xs, f a = some result := by
  refine ⟨List.exists_of_findSome?_eq_some, ?_⟩
  rintro ⟨a, ha, hresult⟩
  induction xs with
  | nil => cases ha
  | cons x rest ih =>
      obtain ⟨hfirst, hrest⟩ := List.pairwise_cons.mp h
      rcases List.mem_cons.mp ha with rfl | ha
      · rw [List.findSome?_cons, hresult]
      · have hnone : f x = none := by
          have hnot := hfirst a ha
          rw [hresult] at hnot
          simpa using hnot
        rw [List.findSome?_cons, hnone]
        exact ih hrest ha

/-- Entries that go by marks of their own exclude each other. -/
theorem pairwise_of_marks {p : α → Bool} {mark : γ} {xs : List α} {marks : List (List γ)}
    (h : List.Forall₂ (fun a own => p a = true → mark ∈ own) xs marks)
    (disjoint : marks.Pairwise fun own other => ∀ mark ∈ own, mark ∉ other) :
    xs.Pairwise fun a b => ¬ (p a = true ∧ p b = true) := by
  induction h with
  | nil => exact .nil
  | cons first others ih =>
      obtain ⟨hfirst, hrest⟩ := List.pairwise_cons.mp disjoint
      refine List.pairwise_cons.mpr ⟨fun b hb ⟨ha, hpb⟩ => ?_, ih hrest⟩
      obtain ⟨own, hown, hmark⟩ := exists_of_mem_forall₂ others hb
      exact hfirst own hown mark (first ha) (hmark hpb)

end Lists

/-- **What comes after the first segment of an address,** in plain letters; nothing does if there
is no segment. -/
def ending (cs : List Char) : Option (List Char) :=
  if (cs.drop 2).isEmpty then none
  else some (((cs.map Text.plainLetter).drop 2).dropWhile (· != '/'))

theorem plainLetter_eq_slash_iff {c : Char} : Text.plainLetter c = '/' ↔ c = '/' := by
  rw [← Text.sameCaseless_iff (by decide)]
  refine ⟨fun h => Text.eq_of_sameCaseless h (by decide) (by decide), fun h => ?_⟩
  rw [h]
  exact Text.sameCaseless_self '/'

/-- A text with plain characters, spelled with or without a slash behind it. -/
theorem SpellsLine.map_plainLetter {text : String} {cs : List Char} (h : SpellsLine text cs)
    (hplain : ∀ p ∈ text.toList, p ∈ Text.plainAlphabet) :
    cs.map Text.plainLetter = text.toList ∨ cs.map Text.plainLetter = text.toList ++ ['/'] := by
  obtain ⟨stem, hstem, rfl | rfl⟩ := h
  · exact Or.inl (hstem.map_plainLetter hplain)
  · right
    rw [List.map_append, hstem.map_plainLetter hplain]
    rfl

theorem ending_developers {cs : List Char} (h : SpellsLine "#/developers" cs) :
    ending cs = some [] ∨ ending cs = some ['/'] := by
  have hplain := h.map_plainLetter (List.forall_iff_forall_mem.mp (by decide))
  have hlong : (cs.drop 2).isEmpty = false := by
    rw [← Bool.not_eq_true, List.isEmpty_iff, List.drop_eq_nil_iff, ← List.length_map
      Text.plainLetter]
    rcases hplain with hplain | hplain <;> rw [hplain] <;> decide
  rw [ending, hlong]
  rcases hplain with hplain | hplain <;> rw [hplain]
  · exact Or.inl (by decide)
  · exact Or.inr (by decide)

theorem ending_ruleset {segment : List Char} {tail address : String}
    (h : HasSegment segment tail address) (htail : tail.toList.head? = some '/')
    (hplain : ∀ p ∈ tail.toList, p ∈ Text.plainAlphabet) :
    ending address.toList = some tail.toList ∨
      ending address.toList = some (tail.toList ++ ['/']) := by
  obtain ⟨rest, haddress, hne, hwhole, hrest⟩ := h
  have hlong : (address.toList.drop 2).isEmpty = false := by
    rw [haddress, ← Bool.not_eq_true, List.isEmpty_iff]
    simp [hne]
  -- the segment has no slash in plain letters either, and the tail starts with one
  have hsegment : ∀ c ∈ segment.map Text.plainLetter, (c != '/') = true := by
    intro c hc
    obtain ⟨original, horiginal, rfl⟩ := List.mem_map.mp hc
    rw [bne_iff_ne, Ne, plainLetter_eq_slash_iff]
    rintro rfl
    exact hwhole horiginal
  have hending : ending address.toList =
      some ((rest.map Text.plainLetter).dropWhile (· != '/')) := by
    rw [ending, hlong, haddress, List.map_append, List.map_append]
    exact congrArg some (List.dropWhile_append_of_pos hsegment)
  obtain ⟨more, hmore⟩ := List.head?_eq_some_iff.mp htail
  rw [hending]
  rcases hrest.map_plainLetter hplain with hrest | hrest <;> rw [hrest, hmore]
  · exact Or.inl rfl
  · exact Or.inr rfl

/-- The tails of the pages that each ruleset has start with a slash and have plain characters. -/
theorem tail_plain (type : DocumentType) :
    ("/documents/" ++ type.slug).toList.head? = some '/' ∧
      ∀ p ∈ ("/documents/" ++ type.slug).toList, p ∈ Text.plainAlphabet := by
  rw [← List.forall_iff_forall_mem]
  cases type <;> decide

/-- The ends of the addresses that match an entry. -/
def endings : List (List (Option (List Char))) :=
  [[none], endingsOf "/documents", endingsOf ("/documents/" ++ DocumentType.slug .poam),
    endingsOf ("/documents/" ++ DocumentType.slug .sap),
    endingsOf ("/documents/" ++ DocumentType.slug .sar),
    endingsOf ("/documents/" ++ DocumentType.slug .ssp), endingsOf ""]
where
  /-- The tail, with or without a slash behind it. -/
  endingsOf (tail : String) : List (Option (List Char)) :=
    [some tail.toList, some (tail.toList ++ ['/'])]

def isMatched (address : String) (entry : AddressPattern × Page) : Bool :=
  (entry.1.match? address).isSome

theorem mem_endingsOf {tail : String} {behind : Option (List Char)}
    (h : behind = some tail.toList ∨ behind = some (tail.toList ++ ['/'])) :
    behind ∈ endings.endingsOf tail := by
  rw [endings.endingsOf, List.mem_cons, List.mem_singleton]
  exact h

/-- An address that matches an entry has one of its ends. -/
theorem forall₂_endings (address : String) :
    List.Forall₂ (fun entry own => isMatched address entry = true →
      ending address.toList ∈ own) table endings := by
  have hruleset (tail : String) (page : Page) (hhead : tail.toList.head? = some '/')
      (hplain : ∀ p ∈ tail.toList, p ∈ Text.plainAlphabet)
      (h : isMatched address (rulesetPattern tail, page) = true) :
      ending address.toList ∈ endings.endingsOf tail := by
    obtain ⟨values, hvalues⟩ := Option.isSome_iff_exists.mp h
    obtain ⟨segment, hsegment, -⟩ := (match?_ruleset hhead).mp hvalues
    exact mem_endingsOf (ending_ruleset hsegment hhead hplain)
  have hdocument (type : DocumentType) (page : Page) :=
    hruleset ("/documents/" ++ type.slug) page (tail_plain type).1 (tail_plain type).2
  rw [table_eq]
  refine .cons (fun h => ?_) (.cons (hruleset _ _ (by decide)
    (List.forall_iff_forall_mem.mp (by decide)))
    (.cons (hdocument .poam _) (.cons (hdocument .sap _) (.cons (hdocument .sar _)
      (.cons (hdocument .ssp _) (.cons (fun h => ?_) .nil))))))
  · obtain ⟨values, hvalues⟩ := Option.isSome_iff_exists.mp h
    obtain ⟨-, rfl⟩ := match?_home.mp hvalues
    decide
  · obtain ⟨values, hvalues⟩ := Option.isSome_iff_exists.mp h
    exact mem_endingsOf (ending_developers (match?_developers.mp hvalues).2)

/-- **No address matches two entries of the table.** -/
theorem table_exclusive (address : String) :
    table.Pairwise fun entry other =>
      ¬ (isMatched address entry = true ∧ isMatched address other = true) :=
  pairwise_of_marks (forall₂_endings address) (by decide)

/-! ## The pages of an address -/

/-- The page that an entry of the table has for an address. -/
def pageOf (address : String) (entry : AddressPattern × Page) : Option Route :=
  (entry.1.match? address).bind entry.2.route?

theorem isMatched_of_pageOf {address : String} {entry : AddressPattern × Page}
    (h : (pageOf address entry).isSome = true) : isMatched address entry = true := by
  unfold pageOf at h
  unfold isMatched
  cases hmatch : entry.1.match? address with
  | none =>
      rw [hmatch] at h
      cases h
  | some values => rfl

theorem pageOf_exclusive {address : String} {entries : List (AddressPattern × Page)}
    (h : entries.Perm table) : entries.Pairwise fun entry other =>
      ¬ ((pageOf address entry).isSome = true ∧ (pageOf address other).isSome = true) := by
  have hsymm {entry other : AddressPattern × Page}
      (h : ¬ ((pageOf address entry).isSome = true ∧ (pageOf address other).isSome = true)) :
      ¬ ((pageOf address other).isSome = true ∧ (pageOf address entry).isSome = true) :=
    fun hboth => h ⟨hboth.2, hboth.1⟩
  rw [h.pairwise_iff hsymm]
  exact (table_exclusive address).imp fun hnot hboth =>
    hnot ⟨isMatched_of_pageOf hboth.1, isMatched_of_pageOf hboth.2⟩

theorem ofKey?_eq_some_iff {key : String} {ruleset : Ruleset} :
    Ruleset.ofKey? key = some ruleset ↔ normalizeTag key = ruleset.key := by
  unfold Ruleset.ofKey?
  constructor
  · intro h
    have hfound := List.find?_some h
    rw [beq_iff_eq] at hfound
    exact hfound.symm
  · intro h
    rw [h]
    cases ruleset <;> rfl

/-- The page for a ruleset by the value of its name. -/
theorem route?_perRuleset (page : Ruleset → Route) (value : String) :
    (Page.perRuleset page).route? [(rulesetParameter, value)] =
      (Ruleset.ofKey? value).map page := by
  rw [Page.route?, List.lookup_cons_self, Option.bind_some]

/-- The page that the entry of a page for rulesets has. -/
theorem pageOf_ruleset {tail address : String} {page : Ruleset → Route} {route : Route}
    (htail : tail.toList.head? = some '/') :
    pageOf address (rulesetPattern tail, .perRuleset page) = some route ↔
      ∃ ruleset, page ruleset = route ∧ NamesRuleset ruleset tail address := by
  unfold pageOf
  rw [Option.bind_eq_some_iff]
  constructor
  · rintro ⟨values, hmatch, hroute⟩
    obtain ⟨segment, hsegment, rfl⟩ := (match?_ruleset htail).mp hmatch
    rw [route?_perRuleset, Option.map_eq_some_iff] at hroute
    obtain ⟨ruleset, hruleset, hpage⟩ := hroute
    exact ⟨ruleset, hpage, segment, hsegment, ofKey?_eq_some_iff.mp hruleset⟩
  · rintro ⟨ruleset, hpage, segment, hsegment, hnames⟩
    refine ⟨_, (match?_ruleset htail).mpr ⟨segment, hsegment, rfl⟩, ?_⟩
    rw [route?_perRuleset, Option.map_eq_some_iff]
    exact ⟨ruleset, ofKey?_eq_some_iff.mpr hnames, hpage⟩

/-- The page that the entry of a page of its own has. -/
theorem pageOf_single {address : String} {pattern : AddressPattern} {page route : Route} :
    pageOf address (pattern, .single page) = some route ↔
      page = route ∧ ∃ values, pattern.match? address = some values := by
  unfold pageOf
  rw [Option.bind_eq_some_iff]
  constructor
  · rintro ⟨values, hmatch, hroute⟩
    exact ⟨Option.some.inj hroute, values, hmatch⟩
  · rintro ⟨rfl, values, hmatch⟩
    exact ⟨values, hmatch, rfl⟩

/-- **An entry of the table has a page for an address exactly if the address is one of it.** -/
theorem exists_pageOf_iff {address : String} {route : Route} :
    (∃ entry ∈ table, pageOf address entry = some route) ↔ route.IsAddressedBy address := by
  have hdocument (type : DocumentType) :
      pageOf address (rulesetPattern ("/documents/" ++ type.slug), .perRuleset (.document type)) =
          some route ↔
        ∃ ruleset, .document type ruleset = route ∧
          NamesRuleset ruleset ("/documents/" ++ type.slug) address :=
    pageOf_ruleset (tail_plain type).1
  have hsummary : pageOf address (rulesetPattern "/documents", .perRuleset .summary) = some route ↔
      ∃ ruleset, .summary ruleset = route ∧ NamesRuleset ruleset "/documents" address :=
    pageOf_ruleset (by decide)
  rw [table_eq]
  simp only [List.mem_cons, List.not_mem_nil, or_false, exists_eq_or_imp, exists_eq_left,
    pageOf_single, match?_home, match?_developers, hsummary, hdocument]
  cases route with
  | home => simp [Route.IsAddressedBy]
  | developers => simp [Route.IsAddressedBy]
  | summary ruleset => simp [Route.IsAddressedBy]
  | document type ruleset => cases type <;> simp [Route.IsAddressedBy]

theorem findSome?_pageOf_iff {address : String} {route : Route}
    {entries : List (AddressPattern × Page)} (h : entries.Perm table) :
    entries.findSome? (pageOf address) = some route ↔ route.IsAddressedBy address := by
  rw [findSome?_eq_some_iff (pageOf_exclusive h), ← exists_pageOf_iff]
  simp only [h.mem_iff]

theorem routeOf?_eq (address : String) : routeOf? address = table.findSome? (pageOf address) :=
  rfl

theorem routeOf?_eq_some_iff {address : String} {route : Route} :
    routeOf? address = some route ↔ route.IsAddressedBy address := by
  rw [routeOf?_eq, findSome?_pageOf_iff (.refl table)]

/-- **The order of the table does not matter.** -/
theorem findSome?_pageOf_of_perm {address : String} {entries : List (AddressPattern × Page)}
    (h : entries.Perm table) : entries.findSome? (pageOf address) = routeOf? address := by
  refine Option.ext fun route => ?_
  rw [findSome?_pageOf_iff h, routeOf?_eq_some_iff]

/-! ## The address of a page -/

theorem SpellsLine.self (text : String) : SpellsLine text text.toList :=
  ⟨text.toList, spells_self _, Or.inl rfl⟩

/-- The name of a ruleset is a segment that names it. -/
theorem namesRuleset_key (ruleset : Ruleset) (tail : String) :
    NamesRuleset ruleset tail ("#/" ++ ruleset.key ++ tail) := by
  have hkey : ruleset.key.toList ≠ [] ∧ '/' ∉ ruleset.key.toList ∧
      normalizeTag ruleset.key = ruleset.key := by
    cases ruleset <;> decide
  obtain ⟨hne, hwhole, hnormal⟩ := hkey
  refine ⟨ruleset.key.toList, ⟨tail.toList, ?_, hne, hwhole, .self tail⟩, ?_⟩
  · rw [String.toList_append, String.toList_append, List.append_assoc]
  · rw [String.ofList_toList, hnormal]

/-- **The address of a page leads to it.** -/
theorem isAddressedBy_address (route : Route) : route.IsAddressedBy route.address := by
  cases route with
  | home => rfl
  | developers => exact .self _
  | summary ruleset => exact namesRuleset_key ruleset "/documents"
  | document type ruleset =>
      have haddress : (Route.document type ruleset).address =
          "#/" ++ ruleset.key ++ ("/documents/" ++ type.slug) := by
        cases ruleset <;> cases type <;> rfl
      rw [Route.IsAddressedBy, haddress]
      exact namesRuleset_key ruleset _

/-- The values that the address of a page has for the parameters. -/
def Route.values : Route → List (String × String)
  | home | developers => []
  | summary ruleset | document _ ruleset => [(rulesetParameter, ruleset.key)]

/-- **The address of a page is what the pattern of its entry spells.** -/
theorem exists_format_eq_address (route : Route) : ∃ entry ∈ table,
    entry.2.route? route.values = some route ∧
      entry.1.format route.values = .ok route.address := by
  rcases route with _ | ⟨⟨⟩⟩ | ⟨⟨⟩, ⟨⟩⟩ | _ <;> decide +kernel

/-- **The grammar of addresses.** A page is found for an address exactly if the address is one of
it, and none is found exactly if it is one of no page. At most one entry of the table matches an
address, so the table may stand in any order. The page of the address of a page that was found is
that page, and its address is what the pattern of its entry spells. -/
theorem routeOf?_grammar (address : String) :
    (∀ route, routeOf? address = some route ↔ route.IsAddressedBy address) ∧
      (routeOf? address = none ↔ ∀ route : Route, ¬ route.IsAddressedBy address) ∧
      (table.filter (isMatched address)).length ≤ 1 ∧
      (∀ reordered : List (AddressPattern × Page), reordered.Perm table →
        reordered.findSome? (pageOf address) = routeOf? address) ∧
      ∀ route, routeOf? address = some route → routeOf? route.address = some route ∧
        ∃ entry ∈ table, entry.2.route? route.values = some route ∧
          entry.1.format route.values = .ok route.address := by
  refine ⟨fun route => routeOf?_eq_some_iff, ?_, length_filter_le_one (table_exclusive address),
    fun reordered => findSome?_pageOf_of_perm, fun route _ => ?_⟩
  · rw [Option.eq_none_iff_forall_ne_some]
    exact forall_congr' fun route => not_congr routeOf?_eq_some_iff
  · exact ⟨routeOf?_eq_some_iff.mpr (isAddressedBy_address route), exists_format_eq_address route⟩

/-- The table read from its end finds the documents of a ruleset that is written in capitals and
between blanks, and their page has the plain address. -/
theorem routeOf?_grammar_capitals :
    table.reverse.findSome? (pageOf "#/ REV5 /Documents/") = some (.summary .rev5) ∧
      (Route.summary .rev5).IsAddressedBy "#/ REV5 /Documents/" ∧
      routeOf? "#/rev5/documents" = some (.summary .rev5) := by
  have hfound : routeOf? "#/ REV5 /Documents/" = some (.summary .rev5) := by decide +kernel
  obtain ⟨hpages, -, -, horder, haddress⟩ := routeOf?_grammar "#/ REV5 /Documents/"
  exact ⟨(horder _ table.reverse_perm).trans hfound, (hpages _).mp hfound, (haddress _ hfound).1⟩

end OscalValidation.Site
