import Mathlib

/-!
# Trees of tables

A table of level `n + 1` points to tables of level `n`: `kids n t` lists what the table `t` points
to when it is read as a table of level `n`. `tablesUnder kids n t` lists the tables under `t`, each
after those under it, which is the order in which a recursive walk leaves them.
-/

namespace FunnyOS

variable {α : Type} {kids kids' : ℕ → α → List α} {n m : ℕ} {t p c x : α}

/-- The tables under a table of level `n`. -/
def tablesUnder (kids : ℕ → α → List α) : ℕ → α → List α
  | 0, _ => []
  | n + 1, t => (kids (n + 1) t).flatMap fun c => tablesUnder kids n c ++ [c]

/-- The table `p` of level `m` is `t` of level `n` or under it. -/
inductive Reaches (kids : ℕ → α → List α) : ℕ → α → ℕ → α → Prop
  | here (n : ℕ) (t : α) : Reaches kids n t n t
  | down {n m : ℕ} {t c p : α} (h : c ∈ kids (n + 1) t) (rest : Reaches kids n c m p) :
      Reaches kids (n + 1) t m p

theorem mem_tablesUnder_of_kid (h : c ∈ kids (n + 1) t) : c ∈ tablesUnder kids (n + 1) t := by
  simp only [tablesUnder, List.mem_flatMap]
  exact ⟨c, h, by simp⟩

theorem tablesUnder_of_kid (h : c ∈ kids (n + 1) t) (hx : x ∈ tablesUnder kids n c) :
    x ∈ tablesUnder kids (n + 1) t := by
  simp only [tablesUnder, List.mem_flatMap]
  exact ⟨c, h, by simp [hx]⟩

theorem mem_tablesUnder_succ : x ∈ tablesUnder kids (n + 1) t ↔
    ∃ c ∈ kids (n + 1) t, x ∈ tablesUnder kids n c ∨ x = c := by
  simp only [tablesUnder, List.mem_flatMap, List.mem_append, List.mem_singleton]

namespace Reaches

theorem mem (h : Reaches kids n t m p) : p ∈ t :: tablesUnder kids n t := by
  induction h with
  | here n t => exact List.mem_cons_self
  | down hc _ ih =>
      apply List.mem_cons_of_mem
      rcases List.mem_cons.1 ih with rfl | hp
      · exact mem_tablesUnder_of_kid hc
      · exact tablesUnder_of_kid hc hp

theorem trans {k : ℕ} (h : Reaches kids n t m p) (h' : Reaches kids m p k c) :
    Reaches kids n t k c := by
  induction h with
  | here n t => exact h'
  | down hc _ ih => exact .down hc (ih h')

theorem kid (h : c ∈ kids (n + 1) t) : Reaches kids (n + 1) t n c := .down h (.here n c)

/-- Tables that are only added do not cut anything off. -/
theorem mono (h : Reaches kids n t m p)
    (hsub : ∀ k x, Reaches kids n t k x → kids k x ⊆ kids' k x) : Reaches kids' n t m p := by
  induction h with
  | here n t => exact .here n t
  | down hc _ ih =>
      refine .down (hsub _ _ (.here _ _) hc) (ih ?_)
      intro k x hx
      exact hsub k x (.down hc hx)

theorem level_le (h : Reaches kids n t m p) : m ≤ n := by
  induction h with
  | here n t => exact le_rfl
  | down _ _ ih => exact Nat.le_succ_of_le ih

end Reaches

/-- The tables under `t` depend on what they and `t` point to at the levels where they are and on
nothing else. -/
theorem tablesUnder_congr (h : ∀ k x, Reaches kids n t k x → kids' k x = kids k x) :
    tablesUnder kids' n t = tablesUnder kids n t := by
  induction n generalizing t with
  | zero => rfl
  | succ n ih =>
      simp only [tablesUnder]
      rw [h _ t (.here _ t)]
      apply List.flatMap_congr
      intro c hc
      rw [ih]
      intro k x hx
      exact h k x (.down hc hx)

/-- Under the kids of `t` no table comes twice. -/
theorem nodup_of_kid (h : (t :: tablesUnder kids (n + 1) t).Nodup) (hc : c ∈ kids (n + 1) t) :
    (c :: tablesUnder kids n c).Nodup := by
  have hlist := (List.nodup_cons.1 h).2
  simp only [tablesUnder] at hlist
  have hone := (List.nodup_flatMap.1 hlist).1 c hc
  exact (List.perm_append_singleton c _).nodup_iff.1 hone

theorem kids_nodup (h : (t :: tablesUnder kids (n + 1) t).Nodup) : (kids (n + 1) t).Nodup := by
  have hlist := (List.nodup_cons.1 h).2
  simp only [tablesUnder] at hlist
  apply (List.nodup_flatMap.1 hlist).2.imp
  intro c d hdisj heq
  subst heq
  exact hdisj (a := c) (by simp) (by simp)

/-- The kids of a table lead to different tables. -/
theorem kid_unique {d : α} (h : (t :: tablesUnder kids (n + 1) t).Nodup) (hc : c ∈ kids (n + 1) t)
    (hd : d ∈ kids (n + 1) t) (hxc : x ∈ c :: tablesUnder kids n c)
    (hxd : x ∈ d :: tablesUnder kids n d) : c = d := by
  have hlist := (List.nodup_cons.1 h).2
  simp only [tablesUnder] at hlist
  have hpairs := (List.nodup_flatMap.1 hlist).2
  have hsymm : Std.Symm (Function.onFun List.Disjoint fun c => tablesUnder kids n c ++ [c]) :=
    ⟨fun _ _ h => h.symm⟩
  by_contra hne
  have hdisj : List.Disjoint (tablesUnder kids n c ++ [c]) (tablesUnder kids n d ++ [d]) :=
    hpairs.forall hc hd hne
  have hshift : ∀ e, x ∈ e :: tablesUnder kids n e → x ∈ tablesUnder kids n e ++ [e] :=
    fun e hx => (List.perm_append_singleton e _).mem_iff.2 hx
  exact hdisj (hshift c hxc) (hshift d hxd)

/-- In a tree in which no table comes twice every table has one level. -/
theorem Reaches.level_unique {k : ℕ} (h : Reaches kids n t m p) (h' : Reaches kids n t k p)
    (hnodup : (t :: tablesUnder kids n t).Nodup) : m = k := by
  induction h generalizing k with
  | here n t =>
      cases h' with
      | here => rfl
      | down hc hrest =>
          have hmem := mem_tablesUnder_succ.2 ⟨_, hc, (List.mem_cons.1 hrest.mem).symm⟩
          exact absurd hmem (List.nodup_cons.1 hnodup).1
  | down hc hrest ih =>
      cases h' with
      | here =>
          have hmem := mem_tablesUnder_succ.2 ⟨_, hc, (List.mem_cons.1 hrest.mem).symm⟩
          exact absurd hmem (List.nodup_cons.1 hnodup).1
      | down hd hrest' =>
          have heq := kid_unique hnodup hc hd hrest.mem hrest'.mem
          subst heq
          exact ih hrest' (nodup_of_kid hnodup hc)

/-- One new table, put under the table `p` of a tree in which no table comes twice. -/
theorem tablesUnder_add (hp : Reaches kids n t (m + 1) p) (hnodup : (t :: tablesUnder kids n t).Nodup)
    (hnew : c ∉ t :: tablesUnder kids n t) (hkids : (kids' (m + 1) p).Perm (c :: kids (m + 1) p))
    (hempty : ∀ k, kids' k c = [])
    (hsame : ∀ k, ∀ x ∈ t :: tablesUnder kids n t, x ≠ p → kids' k x = kids k x) :
    (tablesUnder kids' n t).Perm (c :: tablesUnder kids n t) := by
  have hleaf : ∀ k, tablesUnder kids' k c = [] := by
    intro k
    cases k with
    | zero => rfl
    | succ k =>
        simp only [tablesUnder, hempty]
        rfl
  generalize hlevel : m + 1 = level at hp hkids
  induction hp with
  | here n t =>
      subst hlevel
      simp only [tablesUnder]
      have hcongr : ∀ x ∈ kids (m + 1) t, tablesUnder kids' m x ++ [x] = tablesUnder kids m x ++ [x] := by
        intro x hx
        rw [tablesUnder_congr]
        intro k y hy
        have hmem : y ∈ tablesUnder kids (m + 1) t :=
          mem_tablesUnder_succ.2 ⟨x, hx, (List.mem_cons.1 hy.mem).symm⟩
        apply hsame k y (List.mem_cons_of_mem _ hmem)
        intro heq
        exact (List.nodup_cons.1 hnodup).1 (heq ▸ hmem)
      have hperm := hkids.flatMap_right (fun x => tablesUnder kids' m x ++ [x])
      rw [List.flatMap_cons, hleaf, List.flatMap_congr hcongr] at hperm
      exact hperm
  | @down n k t d p hd hrest ih =>
      have htp : t ≠ p := by
        intro heq
        have hpmem := mem_tablesUnder_succ.2 ⟨d, hd, (List.mem_cons.1 hrest.mem).symm⟩
        exact (List.nodup_cons.1 hnodup).1 (heq ▸ hpmem)
      have hin : ∀ e ∈ kids (n + 1) t, ∀ x ∈ e :: tablesUnder kids n e,
          x ∈ t :: tablesUnder kids (n + 1) t := by
        intro e he x hx
        exact List.mem_cons_of_mem _ (mem_tablesUnder_succ.2 ⟨e, he, (List.mem_cons.1 hx).symm⟩)
      have hone := ih (nodup_of_kid hnodup hd) (fun hc => hnew (hin d hd c hc))
        (fun k x hx => hsame k x (hin d hd x hx)) hlevel hkids
      -- the other kids of `t` do not lead to `p`
      have hother : ∀ e ∈ kids (n + 1) t, e ≠ d →
          tablesUnder kids' n e ++ [e] = tablesUnder kids n e ++ [e] := by
        intro e he hne
        rw [tablesUnder_congr]
        intro k x hx
        apply hsame k x (hin e he x hx.mem)
        intro heq
        exact hne (kid_unique hnodup he hd hx.mem (heq ▸ hrest.mem))
      have hlist := (List.nodup_cons.1 hnodup).2
      simp only [tablesUnder] at hlist ⊢
      rw [hsame _ t List.mem_cons_self htp]
      obtain ⟨before, after, hsplit⟩ := List.append_of_mem hd
      have hkidsNodup : (before ++ d :: after).Nodup := by
        rw [← hsplit]
        exact kids_nodup hnodup
      have hbefore : ∀ e ∈ before, e ≠ d := by
        intro e he
        exact (List.pairwise_append.1 hkidsNodup).2.2 e he d List.mem_cons_self
      have hafter : ∀ e ∈ after, e ≠ d := by
        intro e he
        exact ((List.pairwise_cons.1 (List.pairwise_append.1 hkidsNodup).2.1).1 e he).symm
      have hbefore' : ∀ e ∈ before, tablesUnder kids' n e ++ [e] = tablesUnder kids n e ++ [e] :=
        fun e he => hother e (hsplit ▸ List.mem_append_left _ he) (hbefore e he)
      have hafter' : ∀ e ∈ after, tablesUnder kids' n e ++ [e] = tablesUnder kids n e ++ [e] :=
        fun e he => hother e
          (hsplit ▸ List.mem_append_right _ (List.mem_cons_of_mem _ he)) (hafter e he)
      rw [hsplit, List.flatMap_append, List.flatMap_cons, List.flatMap_append, List.flatMap_cons,
        List.flatMap_congr hbefore', List.flatMap_congr hafter']
      have hmid : (tablesUnder kids' n d ++ [d]).Perm (c :: (tablesUnder kids n d ++ [d])) :=
        hone.append_right [d]
      exact ((hmid.append_right _).append_left _).trans List.perm_middle

/-- What is reached depends on what the tables point to at the levels where they are. -/
theorem Reaches.of_congr {k : ℕ} (h : ∀ k x, Reaches kids n t k x → kids' k x = kids k x)
    (hx : Reaches kids' n t k x) : Reaches kids n t k x := by
  induction hx with
  | here n t => exact .here n t
  | down hc _ ih =>
      rw [h _ _ (.here _ _)] at hc
      exact .down hc (ih fun k y hy => h k y (.down hc hy))

/-- With one new table under `p`, what is reached was reached before or is the new table. -/
theorem Reaches.of_add {N k : ℕ} {T : α} (hp : Reaches kids N T (m + 1) p)
    (hnodup : (T :: tablesUnder kids N T).Nodup)
    (hkids : (kids' (m + 1) p).Perm (c :: kids (m + 1) p)) (hempty : ∀ k, kids' k c = [])
    (hsame : ∀ k, ∀ x ∈ T :: tablesUnder kids N T, x ≠ p → kids' k x = kids k x)
    (ht : Reaches kids N T n t) (hx : Reaches kids' n t k x) :
    Reaches kids N T k x ∨ (x = c ∧ k = m) := by
  induction hx with
  | here n t => exact .inl ht
  | @down n k t d x hd hrest ih =>
      by_cases htp : t = p
      · subst htp
        have hlevel := ht.level_unique hp hnodup
        obtain rfl : n = m := Nat.succ.inj hlevel
        rcases List.mem_cons.1 (hkids.mem_iff.1 hd) with rfl | hd
        · right
          cases hrest with
          | here => exact ⟨rfl, rfl⟩
          | down hnone _ =>
              rw [hempty] at hnone
              exact absurd hnone List.not_mem_nil
        · exact ih (ht.trans (.kid hd))
      · rw [hsame _ t ht.mem htp] at hd
        exact ih (ht.trans (.kid hd))

/-- One slot that was empty, filled. -/
theorem filterMap_fill_perm {ι : Type} {slots : List ι} {i : ι} {f f' : ι → Option α}
    (hslots : slots.Nodup) (hi : i ∈ slots) (hempty : f i = none) (hfill : f' i = some c)
    (hsame : ∀ j, j ≠ i → f' j = f j) : (slots.filterMap f').Perm (c :: slots.filterMap f) := by
  obtain ⟨before, after, rfl⟩ := List.append_of_mem hi
  obtain ⟨-, hafter, hbefore⟩ := List.nodup_append.1 hslots
  have hleft : before.filterMap f' = before.filterMap f := by
    apply List.filterMap_congr
    intro j hj
    exact hsame j (hbefore j hj i List.mem_cons_self)
  have hright : after.filterMap f' = after.filterMap f := by
    apply List.filterMap_congr
    intro j hj
    apply hsame j
    rintro rfl
    exact (List.nodup_cons.1 hafter).1 hj
  rw [List.filterMap_append, List.filterMap_append, List.filterMap_cons_some hfill,
    List.filterMap_cons_none hempty, hleft, hright]
  exact List.perm_middle

end FunnyOS
