import Mathlib

/-!
# The words of a text

`words sep l` are the maximal runs of elements of `l` that are no separators, in order. A scanner
that skips separators and then takes a word goes along the words.
-/

namespace FunnyOS

variable {α : Type*} {sep : α → Bool} {a : α} {l w rest : List α}

/-- The maximal non-empty runs without a separator. -/
def words (sep : α → Bool) (l : List α) : List (List α) :=
  (l.splitOnP sep).filter fun w => !w.isEmpty

@[simp] theorem words_nil : words sep ([] : List α) = [] := rfl

@[simp] theorem words_sep (h : sep a = true) : words sep (a :: l) = words sep l := by
  rw [words, List.splitOnP_cons_eq_if_modifyHead, if_pos h]
  rfl

theorem words_dropWhile : words sep (l.dropWhile sep) = words sep l := by
  induction l with
  | nil => rfl
  | cons a l ih =>
    by_cases h : sep a = true
    · rw [List.dropWhile_cons_of_pos h, ih, words_sep h]
    · rw [List.dropWhile_cons_of_neg h]

/-- A word at the end of the text. -/
theorem words_last (h : ∀ a ∈ w, sep a = false) (hne : w ≠ []) : words sep w = [w] := by
  rw [words, List.splitOnP_eq_singleton h]
  simp [hne]

/-- A word before a separator. -/
theorem words_append_sep (h : ∀ a ∈ w, sep a = false) (hne : w ≠ []) (hsep : sep a = true) :
    words sep (w ++ a :: l) = w :: words sep l := by
  rw [words, List.splitOnP_append_cons_of_forall_mem h a hsep]
  simp [hne, words]

/-- A word is followed by the words of what follows it. -/
theorem words_append (h : ∀ a ∈ w, sep a = false) (hne : w ≠ [])
    (hrest : ∀ a l, rest = a :: l → sep a = true) :
    words sep (w ++ rest) = w :: words sep rest := by
  cases rest with
  | nil => rw [List.append_nil, words_last h hne, words_nil]
  | cons a l =>
    have hsep := hrest a l rfl
    rw [words_append_sep h hne hsep, words_sep hsep]

/-- What a scanner finds: it skips separators and takes what comes before the next one. -/
theorem words_of_dropWhile (h : l.dropWhile sep = a :: rest) :
    words sep l = (a :: rest).takeWhile (fun b => !sep b) ::
      words sep ((a :: rest).dropWhile fun b => !sep b) := by
  have ha : sep a = false := by
    have hhead := List.head_dropWhile_not sep (l := l) (by rw [h]; exact List.cons_ne_nil _ _)
    simpa [h] using hhead
  have hsplit := List.takeWhile_append_dropWhile (p := fun b => !sep b) (l := a :: rest)
  rw [← words_dropWhile, h]
  conv => lhs; rw [← hsplit]
  refine words_append (fun b hb => ?_) ?_ fun b m hm => ?_
  · simpa using List.mem_takeWhile_imp hb
  · rw [List.takeWhile_cons_of_pos (by simpa using ha)]
    exact List.cons_ne_nil _ _
  · have hhead := List.head_dropWhile_not (fun b => !sep b) (l := a :: rest)
      (by rw [hm]; exact List.cons_ne_nil _ _)
    simpa [hm] using hhead

theorem words_flatMap {ws : List (List α)} (hsep : sep a = true)
    (h : ∀ w ∈ ws, w ≠ [] ∧ ∀ b ∈ w, sep b = false) :
    words sep (ws.flatMap fun w => a :: w) = ws := by
  induction ws with
  | nil => rfl
  | cons w ws ih =>
    obtain ⟨hne, hw⟩ := h w List.mem_cons_self
    have hrest := ih fun w' hw' => h w' (List.mem_cons_of_mem _ hw')
    rw [List.flatMap_cons, List.cons_append, words_sep hsep, words_append hw hne, hrest]
    intro b l hl
    cases ws with
    | nil => cases hl
    | cons w' ws =>
      rw [List.flatMap_cons, List.cons_append] at hl
      obtain rfl := (List.cons.inj hl).1
      exact hsep

/-- A word is not empty, and its elements are elements of the text and no separators. -/
theorem mem_words (h : w ∈ words sep l) : w ≠ [] ∧ ∀ a ∈ w, a ∈ l ∧ sep a = false := by
  obtain ⟨hw, hne⟩ := List.mem_filter.mp h
  refine ⟨by simpa using hne, ?_⟩
  clear h hne
  induction l generalizing w with
  | nil =>
    rw [List.splitOnP_nil, List.mem_singleton] at hw
    rw [hw]
    exact fun a ha => absurd ha List.not_mem_nil
  | cons b l ih =>
    have htail : ∀ v ∈ l.splitOnP sep, ∀ a ∈ v, a ∈ b :: l ∧ sep a = false :=
      fun v hv a ha => (ih hv a ha).imp_left (List.mem_cons_of_mem _)
    rw [List.splitOnP_cons_eq_if_modifyHead] at hw
    split at hw
    · rcases List.mem_cons.mp hw with rfl | hw
      · exact fun a ha => absurd ha List.not_mem_nil
      · exact htail w hw
    · next hb =>
      cases hs : l.splitOnP sep with
      | nil => exact absurd hs (List.splitOnP_ne_nil _ _)
      | cons v vs =>
        rw [hs, List.modifyHead_cons] at hw
        rw [hs] at htail
        rcases List.mem_cons.mp hw with rfl | hw
        · intro a ha
          rcases List.mem_cons.mp ha with rfl | ha
          · exact ⟨List.mem_cons_self, Bool.eq_false_iff.mpr hb⟩
          · exact htail v List.mem_cons_self a ha
        · exact htail w (List.mem_cons_of_mem _ hw)

/-- A word is not longer than the list. -/
theorem length_of_mem_words (h : w ∈ words sep l) : w.length ≤ l.length := by
  have hsplit : ∀ w ∈ l.splitOnP sep, w.length ≤ l.length := by
    clear h
    induction l with
    | nil => simp
    | cons b l ih =>
      intro w hw
      rw [List.splitOnP_cons_eq_if_modifyHead] at hw
      split at hw
      · rcases List.mem_cons.mp hw with rfl | hw
        · exact Nat.zero_le _
        · exact (ih w hw).trans (Nat.le_succ _)
      · cases hs : l.splitOnP sep with
        | nil => exact absurd hs (List.splitOnP_ne_nil _ _)
        | cons v vs =>
          rw [hs, List.modifyHead_cons] at hw
          rw [hs] at ih
          rcases List.mem_cons.mp hw with rfl | hw
          · exact Nat.succ_le_succ (ih v List.mem_cons_self)
          · exact (ih w (List.mem_cons_of_mem _ hw)).trans (Nat.le_succ _)
  exact hsplit w (List.mem_filter.mp h).1

end FunnyOS
