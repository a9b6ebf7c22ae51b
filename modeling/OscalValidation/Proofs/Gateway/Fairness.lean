import OscalValidation.Proofs.Gateway.Queue

set_option autoImplicit false

/-! # Fair courses

In a course that goes on for ever and in which the gateway does its next task again and again,
every task has its turn (`Course.first_of_mem`): events only put tasks behind it. A caller whose
load has ended therefore obtains how it ended, whatever else happens, unless it is cancelled
(`Course.obtains`).
-/

namespace OscalValidation

namespace Gateway

variable {α : Type}

/-- **A fair course of the gateway** in which a caller is not cancelled: from each moment to the
next something happens or nothing, and the gateway does not stop doing tasks. -/
structure Course (g : Nat → Gateway α) (caller : Nat) : Prop where
  /-- What happens is no cancellation of the caller. -/
  moves (n : Nat) : g (n + 1) = g n ∨ ∃ e, e ≠ .cancel caller ∧ g (n + 1) = (g n).step e
  /-- Again and again the first task is done. -/
  advances (n : Nat) : ∃ m, n ≤ m ∧ g (m + 1) = (g m).step .advance

section Course

variable {g : Nat → Gateway α} {caller : Nat}

/-- What every event keeps stays from one moment to any later one. -/
theorem Course.keeps (h : Course g caller) {p : Gateway α → Prop}
    (step : ∀ g' e, e ≠ .cancel caller → p g' → p (g'.step e)) {n m : Nat} (hnm : n ≤ m)
    (hp : p (g n)) : p (g m) := by
  induction m, hnm using Nat.le_induction with
  | base => exact hp
  | succ m _ ih =>
      rcases h.moves m with hsame | ⟨e, he, hstep⟩
      · rw [hsame]
        exact ih
      · rw [hstep]
        exact step _ e he ih

/-! ## Every task has its turn -/

/-- Until the first task is done, all tasks stand where they stood. -/
theorem Course.next_advance (h : Course g caller) {n : Nat} {tasks : List GatewayTask}
    (ht : (g n).tasks = tasks) :
    ∃ m new, n ≤ m ∧ (g m).tasks = tasks ++ new ∧ g (m + 1) = (g m).step .advance := by
  obtain ⟨last, hlast, hadvance⟩ := h.advances n
  obtain ⟨wait, rfl⟩ := Nat.exists_eq_add_of_le hlast
  induction wait generalizing n tasks with
  | zero => exact ⟨n, [], Nat.le_refl n, by rw [ht, List.append_nil], hadvance⟩
  | succ wait ih =>
      by_cases hnow : g (n + 1) = (g n).step .advance
      · exact ⟨n, [], Nat.le_refl n, by rw [ht, List.append_nil], hnow⟩
      have hgrown : ∃ new, (g (n + 1)).tasks = tasks ++ new := by
        rcases h.moves n with hsame | ⟨e, -, hstep⟩
        · exact ⟨[], by rw [hsame, ht, List.append_nil]⟩
        · cases (g n).taskMove e with
          | added new _ tasks' _ => exact ⟨new, by rw [hstep, tasks', ht]⟩
          | idle event => exact absurd (by rw [hstep, event]) hnow
          | done _ _ _ event => exact absurd (by rw [hstep, event]) hnow
      obtain ⟨new, hnew⟩ := hgrown
      have hsum : n + (wait + 1) = n + 1 + wait := by omega
      rw [hsum] at hadvance
      obtain ⟨m, more, hm, hmore, hlater⟩ := ih hnew (Nat.le_add_right _ _) hadvance
      exact ⟨m, new ++ more, by omega, by rw [hmore, List.append_assoc], hlater⟩

/-- **Every task is done at some moment.** -/
theorem Course.first_of_mem (h : Course g caller) {n : Nat} {task : GatewayTask}
    (hmem : task ∈ (g n).tasks) :
    ∃ m, n ≤ m ∧ (g m).tasks.head? = some task ∧ g (m + 1) = (g m).step .advance := by
  obtain ⟨before, after, ht⟩ := List.append_of_mem hmem
  clear hmem
  -- by induction on the tasks before it, of which each advance takes one
  induction before generalizing n after with
  | nil =>
      obtain ⟨m, new, hm, hnew, hadvance⟩ := h.next_advance ht
      exact ⟨m, hm, by rw [hnew]; rfl, hadvance⟩
  | cons first before ih =>
      obtain ⟨m, new, hm, hnew, hadvance⟩ := h.next_advance ht
      cases (g m).taskMove .advance with
      | added _ event => exact absurd rfl event
      | idle _ none =>
          rw [none] at hnew
          cases hnew
      | done task' rest more _ hbefore tasks _ =>
          rw [hbefore] at hnew
          obtain ⟨-, hrest⟩ := List.cons_eq_cons.mp hnew
          have hlater : (g (m + 1)).tasks = before ++ task :: (after ++ new ++ more) := by
            rw [hadvance, tasks, hrest]
            simp
          obtain ⟨last, hlast, hfirst⟩ := ih _ hlater
          exact ⟨last, by omega, hfirst⟩

/-! ## Every caller is served -/

/-- A caller that is told does not wait any more. -/
theorem Shares.told_or_gone {g' : Gateway α} {load : Nat} {result : LoadResult α}
    (h : g'.Shares caller load) (hr : g'.resultOf load = some result)
    (hwaiting : g'.callers[caller]? ≠ some ⟨load, .waiting⟩) :
    g'.callers[caller]? = some ⟨load, .told result⟩ ∨
      g'.callers[caller]? = some ⟨load, .gone result⟩ := by
  rcases h with h | ⟨result', hr', h⟩
  · exact absurd h hwaiting
  · rw [hr] at hr'
    cases hr'
    exact h

/-- When a caller is told, it stops waiting. -/
theorem not_waiting_of_tell {g' : Gateway α} {load : Nat} {result : LoadResult α}
    (hr : g'.resultOf load = some result)
    (hfirst : g'.tasks.head? = some (.tell caller)) :
    (g'.step .advance).callers[caller]? ≠ some ⟨load, .waiting⟩ := by
  obtain ⟨rest, ht⟩ := List.head?_eq_some_iff.mp hfirst
  intro hwaiting
  have hstep : g'.step .advance = { g' with tasks := rest }.tell caller := step_advance_cons ht
  rcases { g' with tasks := rest }.tell_cases caller with
    ⟨hsame, hnone⟩ | ⟨load', result', hc, -, htold⟩
  · rw [hstep, hsame] at hwaiting
    exact hnone load result hwaiting hr
  · rw [hstep, htold] at hwaiting
    have hmodified := (getElem?_modify_of_some (i := caller)
      (f := fun c : Caller α => { c with state := .told result' }) hc).symm.trans hwaiting
    rw [if_pos rfl] at hmodified
    cases hmodified

/-- When a caller that was told is let go on, it obtains what it was told. -/
theorem obtained_of_resume {g' : Gateway α} {load : Nat} {result : LoadResult α}
    (hc : g'.callers[caller]? = some ⟨load, .told result⟩)
    (hfirst : g'.tasks.head? = some (.resume caller)) :
    (g'.step .advance).obtained caller = some result := by
  obtain ⟨rest, ht⟩ := List.head?_eq_some_iff.mp hfirst
  have hstep : g'.step .advance = { g' with tasks := rest }.resume caller := step_advance_cons ht
  rcases { g' with tasks := rest }.resume_cases caller with
    ⟨-, hnone⟩ | ⟨load', state, result', hc', hs, hgone⟩
  · exact absurd trivial (hnone load _ hc)
  · have hcaller : g'.callers[caller]? = some ⟨load', state⟩ := hc'
    rw [hc] at hcaller
    cases hcaller
    rcases hs with hs | ⟨hs, -⟩
    · cases hs
      rw [hstep, hgone, obtained_eq_some_iff]
      exact ⟨load, (getElem?_modify_of_some hc').trans (by rw [if_pos rfl])⟩
    · cases hs

/-- **In a fair course a caller whose load has ended obtains how it ended.** -/
theorem Course.obtains (h : Course g caller) (hg : (g 0).Sound) {load : Nat}
    {result : LoadResult α} (hshares : (g 0).Shares caller load)
    (hr : (g 0).resultOf load = some result) : ∃ n, (g n).obtained caller = some result := by
  have hsound : ∀ n, (g n).Sound := fun n =>
    h.keeps (p := Sound) (fun _ e _ hs => hs.step e) (Nat.zero_le n) hg
  have hshare : ∀ n, (g n).Shares caller load := fun n =>
    h.keeps (p := fun g' => g'.Shares caller load) (fun _ _ he hs => hs.step he) (Nat.zero_le n)
      hshares
  have hended : ∀ n, (g n).resultOf load = some result := fun n =>
    h.keeps (p := fun g' => g'.resultOf load = some result)
      (fun g' e _ hs => (g'.extends_step e).resultOf hs) (Nat.zero_le n) hr
  have hgone : ∀ {n}, (g n).callers[caller]? = some ⟨load, .gone result⟩ →
      ∃ n, (g n).obtained caller = some result := fun {n} hc =>
    ⟨n, ((g n).obtained_eq_some_iff caller result).mpr ⟨load, hc⟩⟩
  -- first it is told
  have htold : ∃ n, (g n).callers[caller]? ≠ some ⟨load, .waiting⟩ := by
    by_cases hwaiting : (g 0).callers[caller]? = some ⟨load, .waiting⟩
    · obtain ⟨m, -, hfirst, hadvance⟩ := h.first_of_mem ((hsound 0).attended.waiting hwaiting hr)
      refine ⟨m + 1, ?_⟩
      rw [hadvance]
      exact not_waiting_of_tell (hended m) hfirst
    · exact ⟨0, hwaiting⟩
  obtain ⟨n, hn⟩ := htold
  rcases (hshare n).told_or_gone (hended n) hn with hc | hc
  · -- then it is let go on
    obtain ⟨m, hnm, hfirst, hadvance⟩ := h.first_of_mem ((hsound n).attended.leaving hc trivial)
    have hm : (g m).callers[caller]? ≠ some ⟨load, .waiting⟩ := by
      have hstays : ∃ state, (g m).callers[caller]? = some ⟨load, state⟩ ∧ state ≠ .waiting := by
        refine h.keeps (p := fun g' => ∃ state, g'.callers[caller]? = some ⟨load, state⟩ ∧
          state ≠ .waiting) ?_ hnm ⟨_, hc, by simp⟩
        rintro g' e - ⟨state, hc', hs⟩
        obtain ⟨state', hc'', hback⟩ := g'.caller_step e hc'
        exact ⟨state', hc'', fun hw => hs (hback hw)⟩
      obtain ⟨state, hstate, hs⟩ := hstays
      intro hw
      rw [hstate] at hw
      cases hw
      exact hs rfl
    rcases (hshare m).told_or_gone (hended m) hm with hc' | hc'
    · exact ⟨m + 1, by rw [hadvance]; exact obtained_of_resume hc' hfirst⟩
    · exact hgone hc'
  · exact hgone hc

end Course

end Gateway

end OscalValidation
