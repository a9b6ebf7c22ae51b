import OscalValidation.Conversion.Artifact
import OscalValidation.Proofs.Files.Entries
import OscalValidation.Proofs.Json.Equality

set_option autoImplicit false

/-! # Merging

Values are merged path by path as long as no path leads to values of different kinds (`Alike`): what
only one of two values has is kept, lists are joined, and of other values the upper one counts
(`at?_mergeOver`). So merging is associative (`merge_assoc`) and merging a value with itself changes
nothing (`merge_self`), and of tables that are merged one over the other the first one that has a
value decides it (`overlaid_mergeAll`).
-/

namespace OscalValidation

namespace Json

/-! ## Paths and kinds -/

/-- **What kind of value it is.** -/
inductive Kind
  | list
  | mapping
  | other
deriving DecidableEq

def kind : Json → Kind
  | .arr _ => .list
  | .obj _ => .mapping
  | _ => .other

theorem kind_eq_list_iff {value : Json} : value.kind = .list ↔ ∃ items, value = .arr items := by
  cases value <;> simp [kind]

theorem kind_eq_mapping_iff {value : Json} :
    value.kind = .mapping ↔ ∃ members, value = .obj members := by
  cases value <;> simp [kind]

/-- **The value at the end of a path** of names. -/
def at? : Json → List String → Option Json
  | value, [] => some value
  | value, name :: rest => (value.member? name).bind fun inner => inner.at? rest

/-- **No path leads to values of different kinds.** -/
def Alike (a b : Json) : Prop :=
  ∀ ⦃path : List String⦄ ⦃u v : Json⦄, a.at? path = some u → b.at? path = some v → u.kind = v.kind

theorem Alike.symm {a b : Json} (h : Alike a b) : Alike b a := fun _ _ _ hb ha => (h ha hb).symm

theorem Alike.kind_eq {a b : Json} (h : Alike a b) : a.kind = b.kind := @h [] _ _ rfl rfl

/-- What members of one name are is alike too. -/
theorem Alike.member {a b u v : Json} (h : Alike a b) {name : String}
    (hu : a.member? name = some u) (hv : b.member? name = some v) : Alike u v := by
  intro path u' v' hu' hv'
  refine @h (name :: path) _ _ ?_ ?_
  · rw [at?, hu]
    exact hu'
  · rw [at?, hv]
    exact hv'

mutual

/-- Whether no path leads to values of different kinds. -/
def isAlike : Json → Json → Bool
  | .obj members, .obj others => areAlike members others
  | a, b => a.kind == b.kind

/-- Whether members of the same names are alike. -/
def areAlike : List (String × Json) → List (String × Json) → Bool
  | [], _ => true
  | (name, value) :: rest, others =>
      (others.lookup name).all (isAlike value ·) && areAlike rest others

end

theorem isAlike_of_areAlike {members others : List (String × Json)}
    (h : areAlike members others = true) :
    ∀ m ∈ members, ∀ other ∈ others.lookup m.1, isAlike m.2 other = true := by
  induction members with
  | nil => nofun
  | cons m rest ih =>
      rw [areAlike, Bool.and_eq_true] at h
      refine List.forall_mem_cons.mpr ⟨fun other hother => ?_, ih h.2⟩
      have hall := h.1
      rw [Option.mem_def.mp hother] at hall
      exact hall

theorem alike_of_isAlike {a b : Json} (h : isAlike a b = true) : Alike a b := by
  intro path u v hu hv
  induction path generalizing a b with
  | nil =>
      cases hu
      cases hv
      unfold isAlike at h
      split at h
      · rfl
      · exact beq_iff_eq.mp h
  | cons name rest ih =>
      obtain ⟨inner, hinner, hrest⟩ := Option.bind_eq_some_iff.mp hu
      obtain ⟨inner', hinner', hrest'⟩ := Option.bind_eq_some_iff.mp hv
      cases a with
      | obj members =>
          cases b with
          | obj others =>
              rw [isAlike] at h
              exact ih (isAlike_of_areAlike h _ (mem_of_lookup hinner) _ hinner') hrest hrest'
          | _ => cases hinner'
      | _ => cases hinner

/-! ## Members -/

section Members

variable {name key : String} {value : Json} {base merged top members : List (String × Json)}

theorem lookup_setMember :
    (setMember name value members).lookup key =
      if key = name then some value else members.lookup key := by
  induction members with
  | nil => rw [setMember, lookup_cons_eq_ite]
  | cons member rest ih =>
      obtain ⟨other, old⟩ := member
      rw [setMember]
      by_cases hother : other = name
      · rw [if_pos hother, lookup_cons_eq_ite, lookup_cons_eq_ite, hother]
        by_cases h : key = name <;> simp [h]
      · rw [if_neg hother, lookup_cons_eq_ite, lookup_cons_eq_ite, ih]
        by_cases h : key = other <;> simp [h, hother]

theorem lookup_eq_none_iff_not_mem :
    members.lookup key = none ↔ key ∉ members.map (·.1) := by
  rw [List.lookup_eq_none_iff, List.mem_map]
  simp only [bne_iff_ne, ne_eq, not_exists, not_and]
  exact forall₂_congr fun m _ => not_congr eq_comm

theorem lookup_membersOver (names : (top.map (·.1)).Nodup) :
    (membersOver base merged top).lookup key =
      match top.lookup key with
      | some value => some (mergeOver (base.lookup key) value)
      | none => merged.lookup key := by
  induction top generalizing merged with
  | nil => simp [membersOver]
  | cons member rest ih =>
      obtain ⟨other, value⟩ := member
      obtain ⟨hnot, hrest⟩ := List.nodup_cons.mp names
      rw [membersOver, ih hrest, lookup_setMember, lookup_cons_eq_ite]
      by_cases h : key = other
      · subst h
        rw [lookup_eq_none_iff_not_mem.mpr hnot]
        simp
      · rw [if_neg h, if_neg h]

theorem map_fst_membersOver (names : (top.map (·.1)).Nodup) :
    (membersOver base merged top).map (·.1) =
      merged.map (·.1) ++ (top.map (·.1)).filter (· ∉ merged.map (·.1)) := by
  induction top generalizing merged with
  | nil => simp [membersOver]
  | cons member rest ih =>
      obtain ⟨other, value⟩ := member
      obtain ⟨hnot, hrest⟩ := List.nodup_cons.mp names
      rw [membersOver, ih hrest, map_fst_setMember, List.map_cons]
      by_cases h : other ∈ merged.map (·.1)
      · rw [if_pos h, List.append_nil, List.filter_cons_of_neg (by simpa using h)]
      · -- the name is there from now on, but does not come again
        rw [if_neg h, List.filter_cons_of_pos (by simpa using h), List.append_assoc,
          List.singleton_append]
        congr 2
        refine List.filter_congr fun name hname => ?_
        have hne : name ≠ other := fun heq => hnot (heq ▸ hname)
        simp [hne]

/-- Lists of members are equal if they have the same names in the same order and the same values. -/
theorem members_ext {members' : List (String × Json)} (names : (members.map (·.1)).Nodup)
    (hnames : members.map (·.1) = members'.map (·.1))
    (h : ∀ name, members.lookup name = members'.lookup name) : members = members' := by
  induction members generalizing members' with
  | nil => exact (List.map_eq_nil_iff.mp hnames.symm).symm
  | cons member rest ih =>
      cases members' with
      | nil => cases hnames
      | cons member' rest' =>
          obtain ⟨name, value⟩ := member
          obtain ⟨name', value'⟩ := member'
          obtain ⟨hnot, hrest⟩ := List.nodup_cons.mp names
          obtain ⟨rfl, hothers⟩ := List.cons_eq_cons.mp hnames
          have hvalue := h name
          rw [lookup_cons_eq_ite, lookup_cons_eq_ite, if_pos rfl, if_pos rfl] at hvalue
          cases hvalue
          rw [ih hrest hothers fun other => ?_]
          by_cases hother : other = name
          · subst hother
            rw [lookup_eq_none_iff_not_mem.mpr hnot, lookup_eq_none_iff_not_mem.mpr]
            exact hothers ▸ hnot
          · have hlookup := h other
            rwa [lookup_cons_eq_ite, lookup_cons_eq_ite, if_neg hother, if_neg hother] at hlookup

end Members

/-! ## Merging values -/

section Merge

variable {a b c : Json} {base top : List (String × Json)}

/-- What is found under a name in two objects that are merged. -/
def combine (base top : Option Json) : Option Json :=
  match top with
  | some value => some (mergeOver base value)
  | none => base

theorem lookup_merge (names : (top.map (·.1)).Nodup) (name : String) :
    (merge base top).lookup name = combine (base.lookup name) (top.lookup name) :=
  lookup_membersOver names

theorem map_fst_merge (names : (top.map (·.1)).Nodup) : (merge base top).map (·.1) =
    base.map (·.1) ++ (top.map (·.1)).filter (· ∉ base.map (·.1)) :=
  map_fst_membersOver names

theorem mergeOver_obj : mergeOver (some (.obj base)) (.obj top) = .obj (merge base top) := by
  rw [mergeOver, merge]

theorem mergeOver_arr {xs ys : List Json} : mergeOver (some (.arr xs)) (.arr ys) =
    .arr (xs ++ ys.filter fun y => !xs.any (·.same true y)) := by
  rw [mergeOver]

/-- Over nothing a value stays as it is. -/
theorem mergeOver_none (value : Json) : mergeOver none value = value := by
  cases value <;> rfl

theorem mergeOver_of_other {base : Option Json} {value : Json} (h : value.kind = .other) :
    mergeOver base value = value := by
  cases value <;> first | rfl | cases h

/-- A value over another one stays of its kind. -/
theorem kind_mergeOver (base : Option Json) (value : Json) :
    (mergeOver base value).kind = value.kind := by
  rcases base with _ | under
  · rw [mergeOver_none]
  · cases value <;> cases under <;> rfl

theorem nodup_merge (hbase : (base.map (·.1)).Nodup) (htop : (top.map (·.1)).Nodup) :
    ((merge base top).map (·.1)).Nodup := by
  rw [map_fst_merge htop]
  refine hbase.append (htop.filter _) fun name hname hname' => ?_
  simpa [hname] using (List.mem_filter.mp hname').2

theorem kind_of_isLeaf {value : Json} (h : value.IsLeaf) : value.kind = .other := by
  cases value <;> first | rfl | cases h

/-- Merging keeps names distinct and numbers in standard form. -/
theorem isProper_mergeOver {base : Option Json} {value : Json} (hbase : ∀ u ∈ base, u.IsProper)
    (h : value.IsProper) : (mergeOver base value).IsProper := by
  induction h generalizing base with
  | leaf hleaf standard =>
      rw [mergeOver_of_other (kind_of_isLeaf hleaf)]
      exact .leaf hleaf standard
  | @arr ys hitems _ =>
      rcases base with _ | under
      · exact .arr hitems
      · cases under with
        | arr xs =>
            have hunder := isProper_arr_iff.mp (hbase _ rfl)
            rw [mergeOver_arr]
            refine .arr fun item hitem => ?_
            rcases List.mem_append.mp hitem with hitem | hitem
            · exact hunder item hitem
            · exact hitems item (List.mem_of_mem_filter hitem)
        | _ => exact .arr hitems
  | @obj members names hvalues ih =>
      rcases base with _ | under
      · exact .obj names hvalues
      · cases under with
        | obj under =>
            obtain ⟨hnames, hunder⟩ := isProper_obj_iff.mp (hbase _ rfl)
            rw [mergeOver_obj]
            refine .obj (nodup_merge hnames names) fun m hm => ?_
            have hlookup := (lookup_eq_some_iff_mem (nodup_merge hnames names)).mpr hm
            have hbelow (u : Json) (hu : u ∈ under.lookup m.1) : u.IsProper :=
              hunder _ ((lookup_eq_some_iff_mem hnames).mp hu)
            rw [lookup_merge names] at hlookup
            cases hv : members.lookup m.1 with
            | none =>
                rw [hv] at hlookup
                exact hbelow _ hlookup
            | some value =>
                rw [hv] at hlookup
                rw [← Option.some.inj hlookup]
                exact ih (m.1, value) ((lookup_eq_some_iff_mem names).mp hv) hbelow
        | _ => exact .obj names hvalues

/-! ## Paths in merged values -/

theorem member?_mergeOver (hkind : a.kind = b.kind) (hb : b.IsProper) (name : String) :
    (mergeOver (some a) b).member? name = combine (a.member? name) (b.member? name) := by
  cases b with
  | obj top =>
      cases a with
      | obj base =>
          rw [mergeOver_obj]
          exact lookup_merge (isProper_obj_iff.mp hb).1 name
      | _ => cases hkind
  | arr ys =>
      cases a with
      | arr xs => rfl
      | _ => cases hkind
  | _ => cases a <;> first | rfl | cases hkind

theorem isProper_member? (ha : a.IsProper) {name : String} {u : Json}
    (hu : a.member? name = some u) : u.IsProper := by
  cases a with
  | obj members =>
      obtain ⟨names, hvalues⟩ := isProper_obj_iff.mp ha
      exact hvalues _ ((lookup_eq_some_iff_mem names).mp hu)
  | _ => cases hu

/-- **Values are merged path by path.** -/
theorem at?_mergeOver (hb : b.IsProper) (h : Alike a b) (path : List String) :
    (mergeOver (some a) b).at? path = combine (a.at? path) (b.at? path) := by
  induction path generalizing a b with
  | nil => rfl
  | cons name rest ih =>
      rw [at?, at?, at?, member?_mergeOver h.kind_eq hb]
      cases hu : a.member? name with
      | none =>
          cases hv : b.member? name with
          | none => rfl
          | some v =>
              rw [combine, mergeOver_none]
              cases hend : v.at? rest <;> simp [combine, hend, mergeOver_none]
      | some u =>
          cases hv : b.member? name with
          | none => rfl
          | some v => exact ih (isProper_member? hb hv) (h.member hu hv)

/-- What is alike to both of two values is alike to what they are merged to. -/
theorem Alike.merged (hb : b.IsProper) (hab : Alike a b) (hac : Alike a c) (hbc : Alike b c) :
    Alike (mergeOver (some a) b) c := by
  intro path u v hu hv
  rw [at?_mergeOver hb hab] at hu
  cases hb' : b.at? path with
  | none =>
      rw [hb'] at hu
      exact hac hu hv
  | some w =>
      rw [hb'] at hu
      cases hu
      rw [kind_mergeOver]
      exact hbc hb' hv

/-! ## Associativity and idempotence -/

/-- A value equals an item of a list exactly if it equals one of those that are kept of it or one
of those for which the others were left out. -/
theorem any_append_filter {xs ys : List Json} {z : Json} (hxs : ∀ x ∈ xs, x.IsProper)
    (hys : ∀ y ∈ ys, y.IsProper) (hz : z.IsProper) :
    (xs ++ ys.filter fun y => !xs.any (·.same true y)).any (·.same true z) =
      (xs.any (·.same true z) || ys.any (·.same true z)) := by
  rw [List.any_append, List.any_filter, Bool.eq_iff_iff, Bool.or_eq_true, Bool.or_eq_true]
  by_cases hx : xs.any (·.same true z) = true
  · simp [hx]
  · rw [or_iff_right hx, or_iff_right hx, List.any_eq_true, List.any_eq_true]
    refine exists_congr fun y => and_congr_right fun hy => ?_
    rw [Bool.and_eq_true]
    refine and_iff_right_of_imp fun hsame => ?_
    -- what equals an item that is left out equals the one it was left out for
    rw [Bool.not_eq_true', Bool.eq_false_iff]
    intro hout
    obtain ⟨x, hmem, hxy⟩ := List.any_eq_true.mp hout
    exact hx (List.any_eq_true.mpr
      ⟨x, hmem, same_trans (hxs x hmem) (hys y hy) hz hxy hsame⟩)

theorem filter_append_names {ks ls ms : List String} :
    ks ++ (ls ++ ms.filter (· ∉ ls)).filter (· ∉ ks) =
      (ks ++ ls.filter (· ∉ ks)) ++ ms.filter (· ∉ ks ++ ls.filter (· ∉ ks)) := by
  rw [List.filter_append, List.filter_filter, List.append_assoc]
  congr 2
  refine List.filter_congr fun name _ => ?_
  by_cases hk : name ∈ ks <;> simp [hk]

/-- **Merging is associative** on values of the same kinds. -/
theorem mergeOver_assoc (ha : a.IsProper) (hb : b.IsProper) (hc : c.IsProper) (hab : Alike a b)
    (hac : Alike a c) (hbc : Alike b c) :
    mergeOver (some a) (mergeOver (some b) c) = mergeOver (some (mergeOver (some a) b)) c := by
  induction ha generalizing b c with
  | leaf hleaf standard =>
      have hother : c.kind = .other := hac.kind_eq.symm.trans (kind_of_isLeaf hleaf)
      rw [mergeOver_of_other hother, mergeOver_of_other hother, mergeOver_of_other hother]
  | @arr xs hxs _ =>
      obtain ⟨ys, rfl⟩ := kind_eq_list_iff.mp hab.kind_eq.symm
      obtain ⟨zs, rfl⟩ := kind_eq_list_iff.mp hac.kind_eq.symm
      simp only [mergeOver_arr]
      rw [List.filter_append, List.filter_filter, List.append_assoc]
      congr 3
      refine List.filter_congr fun z hz => ?_
      rw [any_append_filter hxs (isProper_arr_iff.mp hb) (isProper_arr_iff.mp hc z hz),
        Bool.not_or]
  | @obj ma names hvalues ih =>
      obtain ⟨mb, rfl⟩ := kind_eq_mapping_iff.mp hab.kind_eq.symm
      obtain ⟨mc, rfl⟩ := kind_eq_mapping_iff.mp hac.kind_eq.symm
      obtain ⟨hmb, hbs⟩ := isProper_obj_iff.mp hb
      obtain ⟨hmc, hcs⟩ := isProper_obj_iff.mp hc
      have hupper := nodup_merge hmb hmc
      simp only [mergeOver_obj]
      congr 1
      -- the same names in the same order, and the same value under each
      refine members_ext (nodup_merge names hupper) ?_ fun name => ?_
      · rw [map_fst_merge hupper, map_fst_merge hmc, map_fst_merge hmc, map_fst_merge hmb]
        exact filter_append_names
      · rw [lookup_merge hupper, lookup_merge hmc, lookup_merge hmc, lookup_merge hmb]
        cases hw : mc.lookup name with
        | none => rfl
        | some w =>
            cases hv : mb.lookup name with
            | none => simp [combine, mergeOver_none]
            | some v =>
                cases hu : ma.lookup name with
                | none => simp [combine, mergeOver_none]
                | some u =>
                    exact congrArg some (ih (name, u) ((lookup_eq_some_iff_mem names).mp hu)
                      (hbs _ ((lookup_eq_some_iff_mem hmb).mp hv))
                      (hcs _ ((lookup_eq_some_iff_mem hmc).mp hw)) (hab.member hu hv)
                      (hac.member hu hw) (hbc.member hv hw))

/-- **Merging a value with itself changes nothing.** -/
theorem mergeOver_self (ha : a.IsProper) : mergeOver (some a) a = a := by
  induction ha with
  | leaf hleaf standard => exact mergeOver_of_other (kind_of_isLeaf hleaf)
  | @arr xs hxs _ =>
      rw [mergeOver_arr, List.filter_eq_nil_iff.mpr, List.append_nil]
      intro x hx
      simpa using ⟨x, hx, same_refl (hxs x hx)⟩
  | @obj members names hvalues ih =>
      rw [mergeOver_obj]
      congr 1
      have hnames : (merge members members).map (·.1) = members.map (·.1) := by
        rw [map_fst_merge names, List.filter_eq_nil_iff.mpr (by simp), List.append_nil]
      refine members_ext (hnames ▸ names) hnames fun name => ?_
      rw [lookup_merge names]
      cases hv : members.lookup name with
      | none => rfl
      | some v => exact congrArg some (ih _ ((lookup_eq_some_iff_mem names).mp hv))

end Merge

/-! ## Precedence -/

section Precedence

variable {table base top : List (String × Json)} {tables others : List (List (String × Json))}

theorem merge_nil_left (names : (table.map (·.1)).Nodup) : merge [] table = table := by
  have hnames : (merge [] table).map (·.1) = table.map (·.1) := by simp [map_fst_merge names]
  refine members_ext (hnames ▸ names) hnames fun name => ?_
  rw [lookup_merge names]
  cases table.lookup name <;> simp [combine, mergeOver_none]

/-- **Merging tables is associative.** -/
theorem merge_assoc (htable : (obj table).IsProper) (hbase : (obj base).IsProper)
    (htop : (obj top).IsProper) (h : Alike (obj table) (obj base))
    (h' : Alike (obj table) (obj top)) (hbt : Alike (obj base) (obj top)) :
    merge table (merge base top) = merge (merge table base) top := by
  have hassoc := mergeOver_assoc htable hbase htop h h' hbt
  simpa only [mergeOver_obj, obj.injEq] using hassoc

/-- Merging a table with itself changes nothing. -/
theorem merge_self (htable : (obj table).IsProper) : merge table table = table := by
  have hself := mergeOver_self htable
  rwa [mergeOver_obj, obj.injEq] at hself

theorem isProper_merge (hbase : (obj base).IsProper) (htop : (obj top).IsProper) :
    (obj (merge base top)).IsProper := by
  rw [← mergeOver_obj]
  exact isProper_mergeOver (fun u hu => by cases hu; exact hbase) htop

/-- **Tables that can be merged:** names are distinct, numbers are in standard form, and no path
leads to values of different kinds in two of them. -/
structure Compatible (tables : List (List (String × Json))) : Prop where
  /-- Each table is as tables that are read are. -/
  proper : ∀ table ∈ tables, (obj table).IsProper
  /-- What is at the end of a path is of one kind in all of them. -/
  alike : ∀ table ∈ tables, ∀ other ∈ tables, Alike (obj table) (obj other)

theorem Compatible.of_subset (h : Compatible tables) (hsub : others ⊆ tables) :
    Compatible others :=
  ⟨fun _ ht => h.proper _ (hsub ht), fun _ ht _ ht' => h.alike _ (hsub ht) _ (hsub ht')⟩

/-- **Tables one over the other,** the first one uppermost. -/
def mergeAll : List (List (String × Json)) → List (String × Json)
  | [] => []
  | table :: below => merge (mergeAll below) table

theorem isProper_mergeAll (h : ∀ table ∈ tables, (obj table).IsProper) :
    (obj (mergeAll tables)).IsProper := by
  induction tables with
  | nil => exact .obj .nil nofun
  | cons table below ih =>
      obtain ⟨hfirst, hbelow⟩ := List.forall_mem_cons.mp h
      exact isProper_merge (ih hbelow) hfirst

/-- What is alike to each of the tables is alike to all of them merged. -/
theorem Compatible.alike_mergeAll (h : Compatible tables)
    (hother : ∀ t ∈ tables, Alike (obj t) (obj table)) : Alike (obj (mergeAll tables)) (obj table) := by
  induction tables generalizing table with
  | nil =>
      intro path u v hu hv
      cases path with
      | nil =>
          cases hu
          cases hv
          rfl
      | cons name rest => cases hu
  | cons first below ih =>
      obtain ⟨hfirst, hbelow⟩ := List.forall_mem_cons.mp hother
      have hrest : Compatible below := h.of_subset (List.subset_cons_self first below)
      have hdown : Alike (obj (mergeAll below)) (obj first) :=
        ih hrest fun t ht => h.alike t (List.mem_cons_of_mem _ ht) first List.mem_cons_self
      rw [mergeAll, ← mergeOver_obj]
      exact Alike.merged (h.proper first List.mem_cons_self) hdown (ih hrest hbelow) hfirst

/-- **Tables merged in two parts** are merged as a whole. -/
theorem merge_mergeAll (h : Compatible (tables ++ others)) :
    merge (mergeAll others) (mergeAll tables) = mergeAll (tables ++ others) := by
  induction tables with
  | nil => rfl
  | cons first below ih =>
      have hbelow : Compatible (below ++ others) := h.of_subset (List.subset_cons_self _ _)
      have hothers : Compatible others := h.of_subset (List.subset_append_right _ _)
      have hrest : Compatible below := hbelow.of_subset (List.subset_append_left _ _)
      have hfirst : first ∈ first :: below ++ others := List.mem_cons_self
      have hunder (t : List (String × Json)) (ht : t ∈ others) : t ∈ first :: below ++ others :=
        List.mem_append_right _ ht
      have hnext (t : List (String × Json)) (ht : t ∈ below) : t ∈ first :: below ++ others :=
        List.mem_cons_of_mem _ (List.mem_append_left _ ht)
      have hapart : Alike (obj (mergeAll others)) (obj (mergeAll below)) :=
        hothers.alike_mergeAll fun t ht => (hrest.alike_mergeAll fun t' ht' =>
          h.alike t' (hnext t' ht') t (hunder t ht)).symm
      rw [mergeAll, List.cons_append, mergeAll, ← ih hbelow]
      exact merge_assoc (isProper_mergeAll hothers.proper) (isProper_mergeAll hrest.proper)
        (h.proper first hfirst) hapart
        (hothers.alike_mergeAll fun t ht => h.alike t (hunder t ht) first hfirst)
        (hrest.alike_mergeAll fun t ht => h.alike t (hnext t ht) first hfirst)

/-- The values that tables have at the end of a path, those of upper tables first. -/
def valuesAt (tables : List (List (String × Json))) (path : List String) : List Json :=
  tables.filterMap fun table => (obj table).at? path

/-- Values one over the other, the first one uppermost. -/
def overlay : List Json → Option Json
  | [] => none
  | value :: below => some (mergeOver (overlay below) value)

/-- **Tables are merged path by path.** -/
theorem at?_mergeAll (h : Compatible tables) (hne : tables ≠ []) (path : List String) :
    (obj (mergeAll tables)).at? path = overlay (valuesAt tables path) := by
  induction tables with
  | nil => exact absurd rfl hne
  | cons table below ih =>
      have htable := h.proper table List.mem_cons_self
      have hbelow : Compatible below := h.of_subset (List.subset_cons_self _ _)
      by_cases hlast : below = []
      · subst hlast
        rw [mergeAll, mergeAll, merge_nil_left (isProper_obj_iff.mp htable).1, valuesAt]
        cases hv : (obj table).at? path <;> simp [hv, overlay, mergeOver_none]
      · have halike : Alike (obj (mergeAll below)) (obj table) := hbelow.alike_mergeAll fun t ht =>
          h.alike t (List.mem_cons_of_mem _ ht) table List.mem_cons_self
        rw [mergeAll, ← mergeOver_obj, at?_mergeOver htable halike, ih hbelow hlast, valuesAt,
          valuesAt]
        cases hv : (obj table).at? path <;> simp [hv, overlay, combine]

/-- **The list holds the item,** or one that equals it. -/
def lists : Json → Json → Bool
  | .arr items, item => items.any (·.same true item)
  | _, _ => false

theorem lists_mergeOver {a b item : Json} (ha : a.IsProper) (hb : b.IsProper)
    (hitem : item.IsProper) (hkind : a.kind = b.kind) :
    (mergeOver (some a) b).lists item = (a.lists item || b.lists item) := by
  cases b with
  | arr ys =>
      obtain ⟨xs, rfl⟩ := kind_eq_list_iff.mp hkind
      rw [mergeOver_arr]
      exact any_append_filter (isProper_arr_iff.mp ha) (isProper_arr_iff.mp hb) hitem
  | obj top =>
      obtain ⟨base, rfl⟩ := kind_eq_mapping_iff.mp hkind
      rw [mergeOver_obj]
      rfl
  | _ => cases a <;> first | rfl | cases hkind

/-- **What tables one over the other come to.** -/
structure Overlaid (tables : List (List (String × Json))) (merged : List (String × Json)) :
    Prop where
  /-- A path leads somewhere exactly if it does in one of the tables. -/
  present (path : List String) :
    ((obj merged).at? path).isSome = true ↔ ∃ table ∈ tables, ((obj table).at? path).isSome = true
  /-- It leads to a value of the kind that it leads to there. -/
  kind {path : List String} {value : Json} (h : (obj merged).at? path = some value) :
    ∀ table ∈ tables, ∀ own, (obj table).at? path = some own → own.kind = value.kind
  /-- A value that is neither a list nor a mapping is that of the first table that has one. -/
  first {path : List String} {value : Json} (h : (valuesAt tables path).head? = some value)
    (other : value.kind = .other) : (obj merged).at? path = some value
  /-- A list holds the items of the lists in all tables, and no others. -/
  lists {path : List String} {value item : Json} (h : (obj merged).at? path = some value)
    (proper : item.IsProper) :
    value.lists item = true ↔ ∃ table ∈ tables, ∃ own, (obj table).at? path = some own ∧
      own.lists item = true

theorem kind_of_overlay {values : List Json} {value : Json}
    (hkind : ∀ u ∈ values, ∀ v ∈ values, u.kind = v.kind) (h : overlay values = some value) :
    ∀ u ∈ values, u.kind = value.kind := by
  cases values with
  | nil => cases h
  | cons first below =>
      rw [overlay, Option.some.injEq] at h
      intro u hu
      rw [← h, kind_mergeOver]
      exact hkind u hu first List.mem_cons_self

theorem isProper_overlay {values : List Json} (h : ∀ v ∈ values, v.IsProper) :
    ∀ value ∈ overlay values, value.IsProper := by
  induction values with
  | nil => exact nofun
  | cons first below ih =>
      obtain ⟨hfirst, hbelow⟩ := List.forall_mem_cons.mp h
      rintro _ ⟨⟩
      exact isProper_mergeOver (ih hbelow) hfirst

theorem lists_overlay {values : List Json} {value item : Json}
    (hproper : ∀ v ∈ values, v.IsProper) (hkind : ∀ u ∈ values, ∀ v ∈ values, u.kind = v.kind)
    (hitem : item.IsProper) (h : overlay values = some value) :
    value.lists item = true ↔ ∃ v ∈ values, v.lists item = true := by
  induction values generalizing value with
  | nil => cases h
  | cons first below ih =>
      obtain ⟨hfirst, hbelow⟩ := List.forall_mem_cons.mp hproper
      have hkinds : ∀ u ∈ below, ∀ v ∈ below, u.kind = v.kind := fun u hu v hv =>
        hkind u (List.mem_cons_of_mem _ hu) v (List.mem_cons_of_mem _ hv)
      rw [overlay, Option.some.injEq] at h
      subst h
      cases hunder : overlay below with
      | none =>
          cases below with
          | nil => simp [mergeOver_none]
          | cons next rest => cases hunder
      | some under =>
          have hsame : under.kind = first.kind := by
            cases below with
            | nil => cases hunder
            | cons next rest =>
                rw [← kind_of_overlay hkinds hunder next List.mem_cons_self]
                exact hkind next (by simp) first (by simp)
          rw [lists_mergeOver (isProper_overlay hbelow under hunder) hfirst hitem hsame,
            Bool.or_eq_true, ih hbelow hkinds hunder, List.exists_mem_cons_iff, or_comm]

theorem isProper_at? {value : Json} (hvalue : value.IsProper) {path : List String} {u : Json}
    (hu : value.at? path = some u) : u.IsProper := by
  induction path generalizing value with
  | nil =>
      cases hu
      exact hvalue
  | cons name rest ih =>
      obtain ⟨inner, hinner, hrest⟩ := Option.bind_eq_some_iff.mp hu
      exact ih (isProper_member? hvalue hinner) hrest

theorem mem_valuesAt {path : List String} {value : Json} :
    value ∈ valuesAt tables path ↔ ∃ table ∈ tables, (obj table).at? path = some value :=
  List.mem_filterMap

/-- **Tables that can be merged come to what they should,** one over the other. -/
theorem overlaid_mergeAll (h : Compatible tables) (hne : tables ≠ []) :
    Overlaid tables (mergeAll tables) := by
  -- what the merged table holds at a path is the overlay of what the tables hold there
  have hat := at?_mergeAll h hne
  have hkind (path : List String) :
      ∀ u ∈ valuesAt tables path, ∀ v ∈ valuesAt tables path, u.kind = v.kind := by
    intro u hu v hv
    obtain ⟨table, ht, hu⟩ := mem_valuesAt.mp hu
    obtain ⟨other, ho, hv⟩ := mem_valuesAt.mp hv
    exact h.alike table ht other ho hu hv
  constructor
  case present =>
    intro path
    have hvalues : (overlay (valuesAt tables path)).isSome = true ↔
        ∃ value, value ∈ valuesAt tables path := by
      cases valuesAt tables path <;> simp [overlay]
    rw [hat, hvalues]
    simp only [mem_valuesAt, Option.isSome_iff_exists]
    exact ⟨fun ⟨value, table, ht, hv⟩ => ⟨table, ht, value, hv⟩,
      fun ⟨table, ht, value, hv⟩ => ⟨value, table, ht, hv⟩⟩
  case kind =>
    intro path value hvalue table ht own hown
    rw [hat] at hvalue
    exact kind_of_overlay (hkind path) hvalue own (mem_valuesAt.mpr ⟨table, ht, hown⟩)
  case first =>
    intro path value hfirst other
    rw [hat]
    cases hvalues : valuesAt tables path with
    | nil =>
        rw [hvalues] at hfirst
        cases hfirst
    | cons v below =>
        rw [hvalues] at hfirst
        cases hfirst
        rw [overlay, mergeOver_of_other other]
  case lists =>
    intro path value item hvalue hitem
    rw [hat] at hvalue
    have hproper : ∀ v ∈ valuesAt tables path, v.IsProper := by
      intro v hv
      obtain ⟨table, ht, hv⟩ := mem_valuesAt.mp hv
      exact isProper_at? (h.proper table ht) hv
    rw [lists_overlay hproper (hkind path) hitem hvalue]
    simp only [mem_valuesAt]
    exact ⟨fun ⟨own, ⟨table, ht, hown⟩, hlists⟩ => ⟨table, ht, own, hown, hlists⟩,
      fun ⟨table, ht, own, hown, hlists⟩ => ⟨own, ⟨table, ht, hown⟩, hlists⟩⟩

end Precedence

end Json

end OscalValidation
