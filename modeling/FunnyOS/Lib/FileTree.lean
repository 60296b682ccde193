import FunnyOS.Lib.Run

/-!
# File trees

What a file system is for: at each path there is nothing, a directory, or a file with its content.
Four requests change it. `Writes data old new` says what a write of `data` makes of the old content,
if there is one. Each request concerns few paths; what no request of a run concerns is there at its
end as it was.
-/

namespace FunnyOS

/-- What there is at a path. -/
inductive FileNode (β : Type) where
  | dir
  | file (content : β)
deriving DecidableEq, Repr

/-- What there is at each path; a path is the list of the names on the way from the root. -/
abbrev FileTree (α β : Type) : Type := List α → Option (FileNode β)

/-- A request to change the tree. -/
inductive FileRequest (α δ : Type) where
  | write (path : List α) (data : δ)
  | makeDir (path : List α)
  | remove (path : List α)
  | rename (oldPath newPath : List α)

/-- The paths that a request concerns. -/
def FileRequest.Touches {α δ : Type} : FileRequest α δ → List α → Prop
  | .write p _, r => r = p
  | .makeDir p, r => r = p
  | .remove p, r => r = p
  | .rename p q, r => p <+: r ∨ q <+: r

namespace FileTree

variable {α β δ : Type} [DecidableEq α] {t t' : FileTree α β} {p q r : List α} {n m : α}
  {node : Option (FileNode β)} {Writes : δ → Option β → β → Prop} {req : FileRequest α δ}
  {reqs : List (FileRequest α δ)}

/-- The node at `p` has become another one. -/
def put (t : FileTree α β) (p : List α) (node : Option (FileNode β)) : FileTree α β :=
  Function.update t p node

/-- What was at `p` and below it has moved to `q`. -/
def move (t : FileTree α β) (p q : List α) : FileTree α β := fun r =>
  if q <+: r then t (p ++ r.drop q.length) else if p <+: r then none else t r

/-- The root is a directory, and whatever there is lies in a directory. -/
structure Rooted (t : FileTree α β) : Prop where
  root : t [] = some .dir
  parent : ∀ p n, t (p ++ [n]) ≠ none → t p = some .dir

/-- A request that is granted: where it can be, and what becomes of the tree. -/
inductive Step (Writes : δ → Option β → β → Prop) :
    FileTree α β → FileRequest α δ → FileTree α β → Prop
  | create {t : FileTree α β} {p : List α} {n : α} {data : δ} {new : β}
      (parent : t p = some .dir) (absent : t (p ++ [n]) = none) (content : Writes data none new) :
      Step Writes t (.write (p ++ [n]) data) (t.put (p ++ [n]) (some (.file new)))
  | replace {t : FileTree α β} {p : List α} {data : δ} {old new : β}
      (found : t p = some (.file old)) (content : Writes data (some old) new) :
      Step Writes t (.write p data) (t.put p (some (.file new)))
  | makeDir {t : FileTree α β} {p : List α} {n : α} (parent : t p = some .dir)
      (absent : t (p ++ [n]) = none) :
      Step Writes t (.makeDir (p ++ [n])) (t.put (p ++ [n]) (some .dir))
  | remove {t : FileTree α β} {p : List α} {n : α} (found : t (p ++ [n]) ≠ none)
      (empty : ∀ m, t (p ++ [n] ++ [m]) = none) :
      Step Writes t (.remove (p ++ [n])) (t.put (p ++ [n]) none)
  | rename {t : FileTree α β} {p q : List α} {n m : α} (found : t (p ++ [n]) ≠ none)
      (parent : t q = some .dir) (absent : t (q ++ [m]) = none) (outside : ¬ (p ++ [n]) <+: q) :
      Step Writes t (.rename (p ++ [n]) (q ++ [m])) (t.move (p ++ [n]) (q ++ [m]))
  | renameSame {t : FileTree α β} {p : List α} : Step Writes t (.rename p p) t

/-! ## The two changes -/

@[simp] theorem put_self : t.put p node p = node := Function.update_self ..

theorem put_other (h : r ≠ p) : t.put p node r = t r := Function.update_of_ne h ..

theorem move_new : t.move p q (q ++ r) = t (p ++ r) := by
  rw [move, if_pos (List.prefix_append q r), List.drop_left]

theorem move_old (h : ¬ q <+: p ++ r) : t.move p q (p ++ r) = none := by
  rw [move, if_neg h, if_pos (List.prefix_append p r)]

theorem move_other (hp : ¬ p <+: r) (hq : ¬ q <+: r) : t.move p q r = t r := by
  rw [move, if_neg hq, if_neg hp]

/-! ## Rooted trees -/

omit [DecidableEq α] in
/-- Nothing lies below what is not there. -/
theorem Rooted.absent_below (h : t.Rooted) (hp : t p = none) : t (p ++ r) = none := by
  induction r using List.reverseRecOn with
  | nil => rw [List.append_nil, hp]
  | append_singleton r n ih =>
    by_contra hne
    rw [← List.append_assoc] at hne
    have hdir := h.parent (p ++ r) n hne
    rw [ih] at hdir
    cases hdir

theorem Rooted.put (h : t.Rooted) (hparent : t p = some .dir)
    (hbelow : node = some .dir ∨ ∀ m, t (p ++ [n] ++ [m]) = none) :
    (t.put (p ++ [n]) node).Rooted where
  root := by rw [put_other (by simp), h.root]
  parent r m hm := by
    by_cases hr : r = p ++ [n]
    · subst hr
      rw [put_self]
      rcases hbelow with hdir | hnone
      · exact hdir
      · rw [put_other (by simp), hnone m] at hm
        exact absurd rfl hm
    · rw [put_other hr]
      by_cases heq : r ++ [m] = p ++ [n]
      · obtain rfl := (List.append_inj' heq rfl).1
        exact hparent
      · rw [put_other heq] at hm
        exact h.parent r m hm

theorem Rooted.move (h : t.Rooted) (hne : p ≠ []) (hq : t q = some .dir) (houtside : ¬ p <+: q) :
    (t.move p (q ++ [m])).Rooted where
  root := by
    rw [move_other (fun hp => hne (List.prefix_nil.1 hp)) (by simp), h.root]
  parent r k hk := by
    by_cases hnew : (q ++ [m]) <+: r ++ [k]
    · rcases List.prefix_concat_iff.1 hnew with heq | hpre
      · obtain rfl := (List.append_inj' heq rfl).1
        rw [move_other houtside fun hpre => by simpa using hpre.length_le, hq]
      · obtain ⟨s, rfl⟩ := hpre
        rw [List.append_assoc, move_new, ← List.append_assoc] at hk
        rw [move_new]
        exact h.parent _ k hk
    · have hnew' : ¬ (q ++ [m]) <+: r := fun hpre => hnew (hpre.trans (List.prefix_append r [k]))
      by_cases hold : p <+: r ++ [k]
      · rw [FileTree.move, if_neg hnew, if_pos hold] at hk
        exact absurd rfl hk
      · rw [move_other hold hnew] at hk
        rw [move_other (fun hpre => hold (hpre.trans (List.prefix_append r [k]))) hnew']
        exact h.parent r k hk

/-- What is granted keeps the tree rooted. -/
theorem Step.rooted (h : Step Writes t req t') (ht : t.Rooted) : t'.Rooted := by
  cases h with
  | create parent absent content =>
    refine ht.put parent (.inr fun m => ?_)
    exact ht.absent_below absent
  | @replace p data old new found content =>
    rcases List.eq_nil_or_concat p with rfl | ⟨p, n, rfl⟩
    · rw [ht.root] at found
      cases found
    · rw [List.concat_eq_append] at *
      refine ht.put (ht.parent p n (by rw [found]; simp)) (.inr fun m => ?_)
      by_contra hm
      rw [ht.parent _ m hm] at found
      cases found
  | makeDir parent absent => exact ht.put parent (.inl rfl)
  | @remove p n found empty => exact ht.put (ht.parent p n found) (.inr empty)
  | rename found parent absent outside => exact ht.move (by simp) parent outside
  | renameSame => exact ht

/-! ## What a run leaves alone -/

theorem Step.other (h : Step Writes t req t') (hr : ¬ req.Touches r) : t' r = t r := by
  cases h with
  | create => exact put_other hr
  | replace => exact put_other hr
  | makeDir => exact put_other hr
  | remove => exact put_other hr
  | rename =>
    rw [FileRequest.Touches, not_or] at hr
    exact move_other hr.1 hr.2
  | renameSame => rfl

/-! ## Requests that are undone -/

/-- The second request takes back what the first one does to the tree. -/
inductive Undone (t : FileTree α β) : FileRequest α δ → FileRequest α δ → Prop
  | write {p : List α} {data : δ} (absent : t p = none) : Undone t (.write p data) (.remove p)
  | makeDir {p : List α} : Undone t (.makeDir p) (.remove p)
  | rename {p q : List α} : Undone t (.rename p q) (.rename q p)

theorem put_put (h : t p = none) : (t.put p node).put p none = t := by
  rw [put, put, Function.update_idem, ← h, Function.update_eq_self]

/-- What has been moved is moved back. -/
theorem move_move (ht : t.Rooted) (habsent : t q = none) : (t.move p q).move q p = t := by
  funext r
  by_cases hp : p <+: r
  · obtain ⟨s, rfl⟩ := hp
    rw [move_new, move_new]
  · by_cases hq : q <+: r
    · obtain ⟨s, rfl⟩ := hq
      rw [move_old hp, ht.absent_below habsent]
    · rw [move_other hq hp, move_other hp hq]

theorem Step.of_remove (h : Step Writes t (.remove p) t') : t' = t.put p none := by
  generalize hreq : FileRequest.remove p = req at h
  cases h with
  | remove found empty =>
    cases hreq
    rfl
  | _ => cases hreq

theorem Step.of_rename (h : Step Writes t (.rename p q) t') :
    p = q ∧ t' = t ∨ t p ≠ none ∧ t q = none ∧ t' = t.move p q := by
  generalize hreq : FileRequest.rename p q = req at h
  cases h with
  | rename found parent absent outside =>
    cases hreq
    exact .inr ⟨found, absent, rfl⟩
  | renameSame =>
    cases hreq
    exact .inl ⟨rfl, rfl⟩
  | _ => cases hreq

theorem Step.of_makeDir (h : Step Writes t (.makeDir p) t') :
    t p = none ∧ t' = t.put p (some .dir) := by
  generalize hreq : FileRequest.makeDir p = req at h
  cases h with
  | makeDir parent absent =>
    cases hreq
    exact ⟨absent, rfl⟩
  | _ => cases hreq

theorem Step.of_write {data : δ} (h : Step Writes t (.write p data) t') :
    ∃ new, t' = t.put p (some (.file new)) ∧
      (t p = none ∧ Writes data none new ∨ ∃ old, t p = some (.file old) ∧
        Writes data (some old) new) := by
  generalize hreq : FileRequest.write p data = req at h
  cases h with
  | create parent absent content =>
    cases hreq
    exact ⟨_, rfl, .inl ⟨absent, content⟩⟩
  | replace found content =>
    cases hreq
    exact ⟨_, rfl, .inr ⟨_, found, content⟩⟩
  | _ => cases hreq

theorem Step.undone (h : Step Writes t req t') (ht : t.Rooted) {req' : FileRequest α δ}
    {t'' : FileTree α β} (hundo : Undone t req req') (h' : Step Writes t' req' t'') : t'' = t := by
  cases hundo with
  | write absent =>
    obtain ⟨new, rfl, -⟩ := h.of_write
    rw [h'.of_remove, put_put absent]
  | makeDir =>
    obtain ⟨absent, rfl⟩ := h.of_makeDir
    rw [h'.of_remove, put_put absent]
  | rename =>
    rcases h.of_rename with ⟨rfl, rfl⟩ | ⟨found, absent, rfl⟩
    · rcases h'.of_rename with ⟨-, rfl⟩ | ⟨found, absent, -⟩
      · rfl
      · exact absurd absent found
    · rcases h'.of_rename with ⟨rfl, -⟩ | ⟨-, -, rfl⟩
      · exact absurd absent found
      · exact move_move ht absent

/-- Requests that are taken back in the reverse order leave the tree as it was. -/
theorem undone_of_run {pairs : List (FileRequest α δ × FileRequest α δ)} {t'' : FileTree α β}
    (h : Runs (fun t pair t' => Step Writes t pair.1 t' ∧ Undone t pair.1 pair.2) t pairs t')
    (ht : t.Rooted) (h' : Runs (Step Writes) t' (pairs.reverse.map Prod.snd) t'') : t'' = t := by
  induction h generalizing t'' with
  | nil =>
    cases h'
    rfl
  | cons first _ ih =>
    rw [List.reverse_cons, List.map_append] at h'
    obtain ⟨t₁, hrest, hlast⟩ := h'.split
    obtain rfl := ih (first.1.rooted ht) hrest
    cases hlast with
    | cons last rest =>
      cases rest
      exact first.1.undone ht first.2 last

end FileTree

end FunnyOS
