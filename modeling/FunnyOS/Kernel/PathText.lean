import FunnyOS.Fat32.Paths
import FunnyOS.Kernel.Path
import FunnyOS.Lib.Checked
import FunnyOS.Lib.Words

/-!
# Normalised paths

The buffer shows a stack of components: the text that joins them, their starts and their number. A
push and a pop on the buffer are those on the stack, so a path is normalised component by component,
as far as the texts fit. The output is a canonical path, which is the form that the file operations
rely on.
-/

namespace FunnyOS.Paths

open Prog
open Fat32 (joinPath Canonical CanonicalComponent)

/-! ## Components and stacks -/

/-- The components of the path that is normalised. -/
def pathComponents (cwd input : List UInt8) : List (List UInt8) :=
  if input.head? = some slash then words (· == slash) input
  else words (· == slash) cwd ++ words (· == slash) input

/-- What a component does to the components before it. -/
def pathStep (stack : List (List UInt8)) (component : List UInt8) : List (List UInt8) :=
  if component = [dot] then stack
  else if component = [dot, dot] then stack.dropLast
  else stack ++ [component.map kToupper]

/-- The text of the stack and its NUL fit. -/
def PathFits (capacity : Nat) (stack : List (List UInt8)) : Prop :=
  (joinPath stack).length + 1 ≤ capacity

/-- The text fits after each component. -/
def PathsFit (capacity : Nat) (stack components : List (List UInt8)) : Prop :=
  Checked pathStep (fun stack component => PathFits capacity (pathStep stack component)) stack
    components

/-- The text before a further component. -/
def opened (stack : List (List UInt8)) : List UInt8 :=
  if stack = [] then [slash] else joinPath stack ++ [slash]

variable {capacity : Nat} {stack init : List (List UInt8)} {component c : List UInt8}

theorem joinPath_push : joinPath (stack ++ [c]) = opened stack ++ c := by
  rw [Fat32.joinPath_snoc, opened]
  split
  · next h =>
    rw [h]
    rfl
  · next h =>
    obtain ⟨d, ds, rfl⟩ := List.exists_cons_of_ne_nil h
    have htext : joinPath (d :: ds) = (d :: ds).flatMap (Fat32.slash :: ·) := rfl
    rw [htext, List.append_assoc]
    rfl

theorem opened_nil : opened [] = [slash] := rfl

theorem opened_of_ne_nil (h : stack ≠ []) : opened stack = joinPath stack ++ [slash] := if_neg h

/-- The shorter stack has the shorter text. -/
theorem joinPath_prefix : joinPath stack <+: opened stack := by
  unfold opened
  split
  · next h =>
    rw [h]
    exact List.prefix_refl _
  · exact List.prefix_append _ _

theorem two_mul_length_le (h : ∀ c ∈ stack, CanonicalComponent c) (hne : stack ≠ []) :
    2 * stack.length ≤ (joinPath stack).length := by
  induction stack using List.reverseRecOn with
  | nil => exact absurd rfl hne
  | append_singleton init c ih =>
    have hc := List.length_pos_of_ne_nil (h c (by simp)).ne_nil
    rw [joinPath_push, List.length_append, List.length_append, List.length_singleton]
    by_cases hinit : init = []
    · rw [hinit, opened_nil, List.length_singleton, List.length_nil]
      omega
    · have hle := ih (fun d hd => h d (by simp [hd])) hinit
      rw [opened_of_ne_nil hinit, List.length_append, List.length_singleton]
      omega

theorem length_joinPath_eq_one (h : ∀ c ∈ stack, CanonicalComponent c) :
    (joinPath stack).length = 1 ↔ stack = [] := by
  constructor
  · intro hone
    by_contra hne
    have hle := two_mul_length_le h hne
    have hpos := List.length_pos_of_ne_nil hne
    omega
  · rintro rfl
    rfl

/-! ## Letters -/

theorem kToupper_idem (x : UInt8) : kToupper (kToupper x) = kToupper x := by
  unfold kToupper
  split
  · next h =>
    rw [if_neg]
    simp only [UInt8.le_iff_toNat_le, UInt8.toNat_sub, UInt8.reduceToNat] at h ⊢
    omega
  · rfl

theorem kToupper_eq_iff {x y : UInt8} (hy : y < 0x41) : kToupper x = y ↔ x = y := by
  unfold kToupper
  split
  · next h =>
    simp only [UInt8.le_iff_toNat_le, UInt8.lt_iff_toNat_lt, UInt8.reduceToNat,
      ← UInt8.toNat_inj, UInt8.toNat_sub] at h hy ⊢
    omega
  · rfl

theorem kToupper_not_lower (x : UInt8) : ¬ (0x61 ≤ kToupper x ∧ kToupper x ≤ 0x7A) := by
  have h := kToupper_idem x
  intro hlower
  generalize kToupper x = y at h hlower
  unfold kToupper at h
  rw [if_pos hlower] at h
  simp only [UInt8.le_iff_toNat_le, ← UInt8.toNat_inj, UInt8.toNat_sub, UInt8.reduceToNat]
    at h hlower
  omega

/-- A component that is pushed is canonical in capitals. -/
theorem canonicalComponent_push (hne : component ≠ []) (hfree : ∀ x ∈ component, x ≠ slash)
    (hdot : component ≠ [dot]) (hdots : component ≠ [dot, dot]) :
    CanonicalComponent (component.map kToupper) := by
  have hmap : ∀ l : List UInt8, (∀ x ∈ l, x < 0x41) → component.map kToupper = l →
      component = l := by
    intro l hl h
    rw [← h] at hl ⊢
    conv => lhs; rw [← List.map_id component]
    refine List.map_congr_left fun x hx => ?_
    exact ((kToupper_eq_iff (hl _ (List.mem_map_of_mem hx))).mp rfl)
  have hlow : dot < 0x41 := by decide
  refine ⟨by simpa using hne, ?_, fun h => hdot (hmap _ (by simp [hlow]) h),
    fun h => hdots (hmap _ (by simp [hlow]) h), ?_⟩
  · intro x hx
    obtain ⟨y, hy, rfl⟩ := List.mem_map.mp hx
    exact fun h => hfree y hy ((kToupper_eq_iff (by decide)).mp h)
  · rw [List.map_map]
    exact List.map_congr_left fun x _ => kToupper_idem x

/-! ## The buffer -/

variable {s s' : PathState} {text : List UInt8}

/-- The buffer shows a text up to the position. -/
structure Shows (text : List UInt8) (s : PathState) : Prop where
  pos : s.pos = text.length
  out : ∀ i (h : i < text.length), s.out i = text[i]

theorem Shows.shorten {short : List UInt8} (h : Shows text s) (hshort : short <+: text)
    (hpos : s'.pos = short.length) (hout : ∀ i < short.length, s'.out i = s.out i) :
    Shows short s' := by
  refine ⟨hpos, fun i hi => ?_⟩
  rw [hout i hi, h.out i (hi.trans_le hshort.length_le), hshort.getElem hi]

/-- A character is put behind the text. -/
theorem appendOut_ends {x : UInt8} (h : Shows text s) (hroom : text.length < capacity) :
    Ends (appendOut capacity x) s
      (fun _ s' => Shows (text ++ [x]) s' ∧ s'.starts = s.starts ∧ s'.count = s.count)
      (fun _ _ => False) := by
  have hstore : storeOut capacity s.pos x s
      = .ok () { s with out := Function.update s.out s.pos x } := if_pos (h.pos ▸ hroom)
  refine Ends.get_bind (Ends.of_bind_ok hstore (Ends.modify ⟨⟨?_, fun i hi => ?_⟩, rfl, rfl⟩))
  · rw [List.length_append, List.length_singleton, ← h.pos]
  · dsimp only
    rw [h.pos]
    by_cases hlast : i = text.length
    · rw [List.getElem_append_right hlast.ge]
      simp [hlast]
    · have hlt : i < text.length := by
        rw [List.length_append, List.length_singleton] at hi
        omega
      rw [Function.update_of_ne hlast, List.getElem_append_left hlt, h.out i hlt]

theorem appendComponent_ends (h : Shows text s) (hroom : (text ++ c).length ≤ capacity) :
    Ends (appendComponent capacity c) s
      (fun _ s' => Shows (text ++ c.map kToupper) s' ∧ s'.starts = s.starts ∧ s'.count = s.count)
      (fun _ _ => False) := by
  induction c generalizing text s with
  | nil =>
    rw [List.map_nil, List.append_nil]
    exact Ends.pure ⟨h, rfl, rfl⟩
  | cons x c ih =>
    rw [List.length_append, List.length_cons] at hroom
    refine Ends.bind (appendOut_ends h (by omega)) (fun _ _ h => h) ?_
    rintro _ s₁ ⟨h₁, hstarts, hcount⟩
    have hrest := ih h₁ (by simp only [List.length_append, List.length_singleton]; omega)
    rw [List.append_assoc] at hrest
    refine Ends.mono hrest (fun _ s₂ h₂ => ?_) fun _ _ h => h
    exact ⟨h₂.1, h₂.2.1.trans hstarts, h₂.2.2.trans hcount⟩

/-- The buffer and the starts are those of a stack of components. -/
structure Holds (capacity : Nat) (stack : List (List UInt8)) (s : PathState) : Prop where
  canonical : ∀ c ∈ stack, CanonicalComponent c
  fits : PathFits capacity stack
  shows : Shows (joinPath stack) s
  count : s.count = stack.length
  starts : ∀ k < stack.length, s.starts k = (opened (stack.take k)).length

/-- `..` takes the last component off. -/
theorem popComponent_ends (h : Holds capacity stack s) (hcapacity : 2 ≤ capacity) :
    Ends (popComponent capacity) s (fun _ s' => Holds capacity stack.dropLast s')
      (fun _ _ => False) := by
  unfold popComponent
  refine Ends.get_bind (Ends.ite (fun hempty => ?_) fun hcount => ?_)
  · obtain rfl : stack = [] := List.length_eq_zero_iff.mp (h.count.symm.trans hempty)
    refine Ends.modify_bind ?_
    unfold Ends storeOut
    rw [if_pos (by omega)]
    refine ⟨h.canonical, h.fits, ?_, h.count, h.starts⟩
    refine h.shows.shorten (List.prefix_refl _) rfl fun i hi => ?_
    exact Function.update_of_ne (Nat.ne_of_lt hi) _ _
  · rcases List.eq_nil_or_concat stack with rfl | ⟨init, c, hstack⟩
    · exact absurd h.count hcount
    rw [List.concat_eq_append] at hstack
    subst hstack
    have hlast : s.count - 1 = init.length := by
      rw [h.count, List.length_append, List.length_singleton, Nat.add_sub_cancel]
    have hstart : s.starts (s.count - 1) = (opened init).length := by
      rw [hlast, h.starts _ (by simp), List.take_left]
    have hinit : ∀ d ∈ init, CanonicalComponent d := fun d hd => h.canonical d (by simp [hd])
    have hpos : (if s.starts (s.count - 1) > 1 then s.starts (s.count - 1) - 1 else 1)
        = (joinPath init).length := by
      rw [hstart, opened]
      by_cases hne : init = []
      · rw [if_pos hne, hne]
        rfl
      · have hlong := two_mul_length_le hinit hne
        have hlength := List.length_pos_of_ne_nil hne
        rw [if_neg hne, List.length_append, List.length_singleton, if_pos (by omega),
          Nat.add_sub_cancel]
    have hshort : joinPath init <+: joinPath (init ++ [c]) := by
      rw [joinPath_push]
      exact joinPath_prefix.trans (List.prefix_append _ _)
    have hfits : PathFits capacity init :=
      (Nat.add_le_add_right hshort.length_le 1).trans h.fits
    dsimp only
    rw [hpos, List.dropLast_concat]
    refine Ends.modify_bind ?_
    unfold Ends storeOut
    rw [if_pos (Nat.lt_of_succ_le hfits)]
    refine ⟨hinit, hfits, ?_, hlast, fun k hk => ?_⟩
    · refine h.shows.shorten hshort rfl fun i hi => ?_
      exact Function.update_of_ne (Nat.ne_of_lt hi) _ _
    · have hold := h.starts k (by rw [List.length_append]; omega)
      rw [List.take_append_of_le_length hk.le] at hold
      exact hold

/-- The slash before a further component fits, or the text with the component does not. -/
theorem pushSlash_ends (h : Holds capacity stack s) (hcapacity : capacity ≤ pathCapacity) :
    Ends (pushSlash capacity) s
      (fun _ s' => Shows (opened stack) s' ∧ (opened stack).length < capacity ∧
        s'.starts = s.starts ∧ s'.count = s.count)
      (fun _ _ => capacity ≤ (opened stack).length) := by
  have hsize : pathCapacity = 128 := rfl
  have hfits : (joinPath stack).length + 1 ≤ capacity := h.fits
  have hpos : s.pos = 1 ↔ stack = [] := by
    rw [h.shows.pos]
    exact length_joinPath_eq_one h.canonical
  unfold pushSlash
  refine Ends.get_bind (Ends.ite (fun hroot => Ends.pure ?_) fun hroot => ?_)
  · obtain rfl := hpos.mp hroot
    exact ⟨h.shows, Nat.lt_of_succ_le hfits, rfl, rfl⟩
  · have hlength : (opened stack).length = (joinPath stack).length + 1 := by
      rw [opened_of_ne_nil (mt hpos.mpr hroot), List.length_append, List.length_singleton]
    rw [h.shows.pos, Nat.mod_eq_of_lt (by omega)]
    refine Ends.ite (fun hfull => Ends.raise (hlength ▸ hfull)) fun hroom => ?_
    refine Ends.mono (appendOut_ends h.shows (Nat.lt_of_succ_le hfits)) ?_ fun _ _ h => h.elim
    rintro _ s' ⟨hshows, hstarts, hcount⟩
    rw [opened_of_ne_nil (mt hpos.mpr hroot)] at hlength ⊢
    exact ⟨hshows, by omega, hstarts, hcount⟩

/-- A component is put behind the others, if the text then fits. -/
theorem pushComponent_ends (h : Holds capacity stack s) (hcapacity : capacity ≤ pathCapacity)
    (hshort : c.length + capacity ≤ 2 ^ 32) (hne : c ≠ [])
    (hcanonical : CanonicalComponent (c.map kToupper)) {rest : List UInt8} :
    Ends (pushComponent capacity (c ++ rest) c.length) s
      (fun _ s' => Holds capacity (stack ++ [c.map kToupper]) s')
      (fun _ _ => ¬ PathFits capacity (stack ++ [c.map kToupper])) := by
  have hsize : pathCapacity = 128 := rfl
  have hfits : (joinPath stack).length + 1 ≤ capacity := h.fits
  have hlength : (joinPath (stack ++ [c.map kToupper])).length
      = (opened stack).length + c.length := by
    rw [joinPath_push, List.length_append, List.length_map]
  have hpos := List.length_pos_of_ne_nil hne
  have hcount : s.count < pathCapacity := by
    rw [h.count]
    by_cases hempty : stack = []
    · rw [hempty]
      decide
    · have hle := two_mul_length_le h.canonical hempty
      omega
  unfold pushComponent
  refine Ends.get_bind (Ends.ite (fun hbad => ?_) fun _ => ?_)
  · omega
  refine Ends.bind (pushSlash_ends h hcapacity) (fun _ _ hfull hroom => ?_) ?_
  · unfold PathFits at hroom
    omega
  rintro _ s₁ ⟨hshows, hroom, hstarts₁, hcount₁⟩
  refine Ends.get_bind ?_
  rw [hshows.pos, Nat.mod_eq_of_lt (by omega)]
  refine Ends.ite (fun hfull => Ends.raise fun hin => ?_) fun hin => ?_
  · unfold PathFits at hin
    omega
  have hstart : storeStart s₁
      = .ok () { s₁ with starts := Function.update s₁.starts s₁.count s₁.pos } :=
    if_pos (hcount₁ ▸ hcount)
  rw [List.take_left]
  refine Ends.of_bind_ok hstart ?_
  have hshows' : Shows (opened stack)
      { s₁ with starts := Function.update s₁.starts s₁.count s₁.pos } := ⟨hshows.pos, hshows.out⟩
  refine Ends.bind (appendComponent_ends hshows' (by rw [List.length_append]; omega))
    (fun _ _ h => h.elim) ?_
  rintro _ s₂ ⟨hshows₂, hstarts₂, hcount₂⟩
  rw [← joinPath_push] at hshows₂
  have hstore : storeOut capacity s₂.pos 0 s₂
      = .ok () { s₂ with out := Function.update s₂.out s₂.pos 0 } :=
    if_pos (by rw [hshows₂.pos]; omega)
  refine Ends.get_bind (Ends.of_bind_ok hstore (Ends.modify ⟨?_, ?_, ?_, ?_, ?_⟩))
  · intro d hd
    rcases List.mem_append.mp hd with hd | hd
    · exact h.canonical d hd
    · rw [List.mem_singleton.mp hd]
      exact hcanonical
  · unfold PathFits
    omega
  · refine hshows₂.shorten (List.prefix_refl _) hshows₂.pos fun i hi => ?_
    exact Function.update_of_ne (by rw [hshows₂.pos]; exact Nat.ne_of_lt hi) _ _
  · rw [List.length_append, List.length_singleton, ← h.count, ← hcount₁]
    exact congrArg (· + 1) hcount₂
  · intro k hk
    rw [List.length_append, List.length_singleton] at hk
    dsimp only
    rw [hstarts₂]
    dsimp only
    by_cases hlast : k = stack.length
    · rw [hlast, List.take_left, hcount₁, h.count, Function.update_self]
      exact hshows.pos
    · rw [hcount₁, h.count, Function.update_of_ne hlast, hstarts₁,
        List.take_append_of_le_length (by omega)]
      exact h.starts k (by omega)

/-! ## A path -/

/-- The lengths of the components are counted without loss. -/
def Countable (capacity : Nat) (components : List (List UInt8)) : Prop :=
  ∀ c ∈ components, c.length + capacity ≤ 2 ^ 32

/-- A component does to the buffer what it does to the stack. -/
theorem applyComponent_ends (h : Holds capacity stack s) (hsmall : 2 ≤ capacity)
    (hcapacity : capacity ≤ pathCapacity) (hshort : c.length + capacity ≤ 2 ^ 32) (hne : c ≠ [])
    (hfree : ∀ x ∈ c, x ≠ slash) {rest : List UInt8} :
    Ends (applyComponent capacity (c ++ rest) c.length) s
      (fun _ s' => Holds capacity (pathStep stack c) s')
      (fun _ _ => ¬ PathFits capacity (pathStep stack c)) := by
  have hdot : (c.length = 1 ∧ (c ++ rest).getD 0 0 = dot) ↔ c = [dot] := by
    constructor
    · rintro ⟨hlength, hfirst⟩
      obtain ⟨x, rfl⟩ := List.length_eq_one_iff.mp hlength
      exact congrArg ([·]) hfirst
    · rintro rfl
      exact ⟨rfl, rfl⟩
  have hdots : (c.length = 2 ∧ (c ++ rest).getD 0 0 = dot ∧ (c ++ rest).getD 1 0 = dot) ↔
      c = [dot, dot] := by
    constructor
    · rintro ⟨hlength, hfirst, hsecond⟩
      obtain ⟨x, y, rfl⟩ := List.length_eq_two.mp hlength
      rw [show x = dot from hfirst, show y = dot from hsecond]
    · rintro rfl
      exact ⟨rfl, rfl, rfl⟩
  unfold applyComponent pathStep
  by_cases hc : c = [dot]
  · rw [if_pos (hdot.mpr hc), if_pos hc]
    exact Ends.pure h
  rw [if_neg (mt hdot.mp hc), if_neg hc]
  by_cases hcc : c = [dot, dot]
  · rw [if_pos (hdots.mpr hcc), if_pos hcc]
    exact Ends.mono (popComponent_ends h hsmall) (fun _ _ h => h) fun _ _ h => h.elim
  · rw [if_neg (mt hdots.mp hcc), if_neg hcc]
    exact pushComponent_ends h hcapacity hshort hne (canonicalComponent_push hne hfree hc hcc)

/-- What is left to absorb of a path, when the components before it have fitted. -/
structure Absorbed (capacity : Nat) (stack all : List (List UInt8)) (cursor : List UInt8)
    (s : PathState) (before : List (List UInt8)) : Prop where
  all : all = before ++ words (· == slash) cursor
  head : ∀ x rest, cursor = x :: rest → (x == slash) = false
  fits : PathsFit capacity stack before
  holds : Holds capacity (before.foldl pathStep stack) s

theorem head_dropWhile_slash {path rest : List UInt8} {x : UInt8}
    (h : path.dropWhile (· == slash) = x :: rest) : (x == slash) = false := by
  have hhead := List.head_dropWhile_not (· == slash) (l := path)
    (by rw [h]; exact List.cons_ne_nil _ _)
  simpa [h] using hhead

theorem pathsFit_append {a b : List (List UInt8)} :
    PathsFit capacity stack (a ++ b) ↔
      PathsFit capacity stack a ∧ PathsFit capacity (a.foldl pathStep stack) b := checked_append

theorem absorbComponent_ends {all before : List (List UInt8)} {cursor : List UInt8}
    (h : Absorbed capacity stack all cursor s before) (hsmall : 2 ≤ capacity)
    (hcapacity : capacity ≤ pathCapacity) (hcountable : Countable capacity all) :
    Ends (absorbComponent capacity cursor) s
      (fun r s' => match r with
        | .again next => next.length < cursor.length ∧
            ∃ before', Absorbed capacity stack all next s' before'
        | .done _ => PathsFit capacity stack all ∧ Holds capacity (all.foldl pathStep stack) s')
      (fun _ _ => ¬ PathsFit capacity stack all) := by
  obtain ⟨rfl, hhead, hfits, hholds⟩ := h
  unfold absorbComponent
  refine Ends.ite (fun hend => Ends.pure ?_) fun hmore => ?_
  · rw [hend, words_nil, List.append_nil]
    exact ⟨hfits, hholds⟩
  obtain ⟨x, l, rfl⟩ := List.exists_cons_of_ne_nil hmore
  have hx := hhead x l rfl
  have hwords : words (· == slash) (x :: l) = (x :: l).takeWhile (· != slash) ::
      words (· == slash) ((x :: l).dropWhile (· != slash)) :=
    words_of_dropWhile (List.dropWhile_cons_of_neg (by simpa using hx))
  have hsplit := List.takeWhile_append_dropWhile (p := (· != slash)) (l := x :: l)
  have hne : (x :: l).takeWhile (· != slash) ≠ [] := by
    rw [List.takeWhile_cons_of_pos (by simpa [bne] using hx)]
    exact List.cons_ne_nil _ _
  have hfree : ∀ y ∈ (x :: l).takeWhile (· != slash), y ≠ slash := by
    intro y hy
    simpa using List.mem_takeWhile_imp hy
  rw [hwords] at hcountable ⊢
  generalize (x :: l).takeWhile (· != slash) = c at hne hfree hsplit hcountable ⊢
  generalize (x :: l).dropWhile (· != slash) = rest at hsplit hcountable ⊢
  have hshort : c.length + capacity ≤ 2 ^ 32 := hcountable c (by simp)
  have hstep : PathsFit capacity stack (before ++ c :: words (· == slash) rest) →
      PathFits capacity (pathStep (before.foldl pathStep stack) c) :=
    fun hfit => (pathsFit_append.mp hfit).2.1
  rw [← hsplit, Nat.mod_eq_of_lt (by omega)]
  refine Ends.bind (applyComponent_ends hholds hsmall hcapacity hshort hne hfree)
    (fun _ _ hfull hfit => hfull (hstep hfit)) fun _ s' hs' => Ends.pure ⟨?_, before ++ [c], ?_⟩
  · have hle := (List.dropWhile_suffix (· == slash) (l := rest)).length_le
    have hpos := List.length_pos_of_ne_nil hne
    rw [List.length_append]
    omega
  · refine ⟨?_, fun y m hm => head_dropWhile_slash hm, ?_, ?_⟩
    · rw [words_dropWhile, List.append_assoc]
      rfl
    · exact pathsFit_append.mpr ⟨hfits, hs'.fits, trivial⟩
    · rw [List.foldl_append]
      exact hs'

/-- A path is absorbed exactly if its components fit one after the other. -/
theorem absorbPath_ends {path : List UInt8} (h : Holds capacity stack s) (hsmall : 2 ≤ capacity)
    (hcapacity : capacity ≤ pathCapacity)
    (hcountable : Countable capacity (words (· == slash) path)) :
    Ends (absorbPath capacity path) s
      (fun _ s' => PathsFit capacity stack (words (· == slash) path) ∧
        Holds capacity ((words (· == slash) path).foldl pathStep stack) s')
      (fun _ _ => ¬ PathsFit capacity stack (words (· == slash) path)) := by
  refine Ends.loop (fun k cursor s' => cursor.length ≤ k ∧
    ∃ before, Absorbed capacity stack (words (· == slash) path) cursor s' before) ?_
    (path.length + 1) path.length (path.dropWhile (· == slash)) s (Nat.lt_succ_self _) ?_
  · rintro k cursor s₁ ⟨hk, before, hbefore⟩
    refine Ends.mono (absorbComponent_ends hbefore hsmall hcapacity hcountable) ?_
      fun _ _ h => h
    rintro (next | _) s₂ hround
    · exact ⟨next.length, by omega, le_rfl, hround.2⟩
    · exact hround
  · refine ⟨(List.dropWhile_suffix _).length_le, [], ?_, fun x l hl => head_dropWhile_slash hl,
      trivial, h⟩
    rw [words_dropWhile]
    rfl

/-! ## Normalisation -/

variable {cwd input : CString}

theorem mem_pathComponents {l m : List UInt8} (h : c ∈ pathComponents l m) :
    c ≠ [] ∧ ∀ x ∈ c, (x ∈ l ∨ x ∈ m) ∧ x ≠ slash := by
  have hword : ∀ path : List UInt8, c ∈ words (· == slash) path →
      c ≠ [] ∧ ∀ x ∈ c, x ∈ path ∧ x ≠ slash := by
    intro path hc
    obtain ⟨hne, hmem⟩ := mem_words hc
    exact ⟨hne, fun x hx => ⟨(hmem x hx).1, by simpa using (hmem x hx).2⟩⟩
  unfold pathComponents at h
  split at h
  · obtain ⟨hne, hmem⟩ := hword m h
    exact ⟨hne, fun x hx => ⟨.inr (hmem x hx).1, (hmem x hx).2⟩⟩
  · rcases List.mem_append.mp h with h | h
    · obtain ⟨hne, hmem⟩ := hword l h
      exact ⟨hne, fun x hx => ⟨.inl (hmem x hx).1, (hmem x hx).2⟩⟩
    · obtain ⟨hne, hmem⟩ := hword m h
      exact ⟨hne, fun x hx => ⟨.inr (hmem x hx).1, (hmem x hx).2⟩⟩

/-- The buffer with the root. -/
theorem holds_nil (hsmall : 2 ≤ capacity) {out : Nat → UInt8} {starts : Nat → Nat}
    (hout : out 0 = slash) : Holds capacity [] ⟨out, 1, starts, 0⟩ := by
  refine ⟨fun _ h => absurd h List.not_mem_nil, hsmall, ⟨rfl, fun i hi => ?_⟩, rfl,
    fun k hk => absurd hk (Nat.not_lt_zero k)⟩
  obtain rfl : i = 0 := Nat.lt_one_iff.mp hi
  exact hout

theorem storeOut_ok {index : Nat} {x : UInt8} (h : index < capacity) : storeOut capacity index x s
    = .ok () { s with out := Function.update s.out index x } := if_pos h

/-- A path is normalised exactly if its components fit one after the other. -/
theorem pathNormalize_ends (hsmall : 2 ≤ capacity) (hcapacity : capacity ≤ pathCapacity)
    (hcountable : Countable capacity (pathComponents cwd.chars input.chars)) :
    Ends (pathNormalize (some cwd) (some input) capacity) s
      (fun _ s' => PathsFit capacity [] (pathComponents cwd.chars input.chars) ∧
        Holds capacity ((pathComponents cwd.chars input.chars).foldl pathStep []) s' ∧
        s'.out s'.pos = 0)
      (fun _ _ => ¬ PathsFit capacity [] (pathComponents cwd.chars input.chars)) := by
  -- the path that is absorbed last ends the text
  have hlast : ∀ stack s₁, Holds capacity stack s₁ →
      Countable capacity (words (· == slash) input.chars) →
      Ends (absorbPath capacity input.chars >>= fun _ => Prog.get >>= fun s =>
          storeOut capacity s.pos 0) s₁
        (fun _ s' => PathsFit capacity stack (words (· == slash) input.chars) ∧
          Holds capacity ((words (· == slash) input.chars).foldl pathStep stack) s' ∧
          s'.out s'.pos = 0)
        (fun _ _ => ¬ PathsFit capacity stack (words (· == slash) input.chars)) := by
    intro stack s₁ h₁ hcount
    refine Ends.bind (absorbPath_ends h₁ hsmall hcapacity hcount) (fun _ _ h => h) ?_
    rintro _ s₂ ⟨hfits, h₂⟩
    have hroom : s₂.pos < capacity := by
      rw [h₂.shows.pos]
      exact Nat.lt_of_succ_le h₂.fits
    refine Ends.get_bind ?_
    unfold Ends
    rw [storeOut_ok hroom]
    refine ⟨hfits, ⟨h₂.canonical, h₂.fits, ?_, h₂.count, h₂.starts⟩, Function.update_self ..⟩
    refine h₂.shows.shorten (List.prefix_refl _) h₂.shows.pos fun i hi => ?_
    exact Function.update_of_ne (by rw [h₂.shows.pos]; exact Nat.ne_of_lt hi) _ _
  unfold pathNormalize
  refine Ends.ite (fun hbad => absurd hsmall (not_le.mpr hbad)) fun _ => Ends.modify_bind ?_
  refine Ends.of_bind_ok (storeOut_ok (by omega)) (Ends.of_bind_ok (storeOut_ok (by omega)) ?_)
  have hroot : Holds capacity [] ⟨Function.update (Function.update s.out 0 slash) 1 0, 1,
      s.starts, 0⟩ := holds_nil hsmall (by simp [Function.update])
  unfold pathComponents at hcountable ⊢
  by_cases habsolute : input.chars.head? = some slash
  · rw [if_pos habsolute] at hcountable ⊢
    rw [if_neg (not_not.mpr habsolute)]
    exact hlast [] _ hroot hcountable
  · rw [if_neg habsolute] at hcountable ⊢
    rw [if_pos habsolute]
    refine Ends.bind (absorbPath_ends hroot hsmall hcapacity fun c hc =>
      hcountable c (List.mem_append_left _ hc)) (fun _ _ hbad hfit => ?_) ?_
    · exact hbad (pathsFit_append.mp hfit).1
    rintro _ s₁ ⟨hfits, h₁⟩
    refine Ends.mono (hlast _ s₁ h₁ fun c hc => hcountable c (List.mem_append_right _ hc)) ?_ ?_
    · rintro _ s₂ ⟨hfits₂, h₂, hnul⟩
      rw [List.foldl_append]
      exact ⟨pathsFit_append.mpr ⟨hfits, hfits₂⟩, h₂, hnul⟩
    · exact fun _ _ hbad hfit => hbad (pathsFit_append.mp hfit).2

/-! ## The output -/

/-- The components of the normalised path. -/
def normalComponents (cwd input : List UInt8) : List (List UInt8) :=
  (pathComponents cwd input).foldl pathStep []

/-- A component of the result is one of the paths in capitals. -/
theorem mem_foldl_pathStep {components : List (List UInt8)}
    (h : c ∈ components.foldl pathStep stack) :
    c ∈ stack ∨ ∃ d ∈ components, c = d.map kToupper := by
  induction components generalizing stack with
  | nil => exact .inl h
  | cons d components ih =>
    rcases ih h with h | ⟨e, he, rfl⟩
    · unfold pathStep at h
      split at h
      · exact .inl h
      · split at h
        · exact .inl (List.dropLast_subset _ h)
        · rcases List.mem_append.mp h with h | h
          · exact .inl h
          · exact .inr ⟨d, List.mem_cons_self, List.mem_singleton.mp h⟩
    · exact .inr ⟨e, List.mem_cons_of_mem _ he, rfl⟩

theorem mem_joinPath {x : UInt8} (h : x ∈ joinPath stack) : x = slash ∨ ∃ c ∈ stack, x ∈ c := by
  cases stack with
  | nil => exact .inl (List.mem_singleton.mp h)
  | cons c stack =>
    obtain ⟨d, hd, hx⟩ := List.mem_flatMap.mp h
    rcases List.mem_cons.mp hx with rfl | hx
    · exact .inl rfl
    · exact .inr ⟨d, hd, hx⟩

/-- A character of the result is the slash or a character of the paths in capitals. -/
theorem mem_normalText {l m : List UInt8} {x : UInt8}
    (h : x ∈ joinPath (normalComponents l m)) :
    x = slash ∨ ∃ y, (y ∈ l ∨ y ∈ m) ∧ x = kToupper y := by
  rcases mem_joinPath h with rfl | ⟨c, hc, hx⟩
  · exact .inl rfl
  · rcases mem_foldl_pathStep hc with hc | ⟨d, hd, rfl⟩
    · exact absurd hc List.not_mem_nil
    · obtain ⟨y, hy, rfl⟩ := List.mem_map.mp hx
      exact .inr ⟨y, ((mem_pathComponents hd).2 y hy).1, rfl⟩

theorem normalText_noNul : ∀ x ∈ joinPath (normalComponents cwd.chars input.chars), x ≠ 0 := by
  intro x hx
  rcases mem_normalText hx with rfl | ⟨y, hy, rfl⟩
  · decide
  · rw [ne_eq, kToupper_eq_iff (by decide)]
    exact hy.elim (cwd.noNul y) (input.noNul y)

theorem normalText_not_lower {l m : List UInt8} :
    ∀ x ∈ joinPath (normalComponents l m), ¬ (0x61 ≤ x ∧ x ≤ 0x7A) := by
  intro x hx
  rcases mem_normalText hx with rfl | ⟨y, -, rfl⟩
  · decide
  · exact kToupper_not_lower y

/-! ## Normalising again -/

theorem words_joinPath (h : ∀ c ∈ stack, CanonicalComponent c) :
    words (· == slash) (joinPath stack) = stack := by
  have hwords : ∀ c ∈ stack, c ≠ [] ∧ ∀ x ∈ c, (x == slash) = false :=
    fun c hc => ⟨(h c hc).ne_nil, fun x hx => beq_eq_false_iff_ne.mpr ((h c hc).no_slash x hx)⟩
  cases stack with
  | nil => rfl
  | cons c stack => exact words_flatMap rfl hwords

theorem pathStep_canonical (h : CanonicalComponent c) : pathStep stack c = stack ++ [c] := by
  rw [pathStep, if_neg h.ne_dot, if_neg h.ne_dots, h.upper]

theorem foldl_pathStep_canonical (h : ∀ c ∈ stack, CanonicalComponent c) :
    stack.foldl pathStep init = init ++ stack := by
  induction stack generalizing init with
  | nil => exact (List.append_nil _).symm
  | cons c stack ih =>
    rw [List.foldl_cons, pathStep_canonical (h c List.mem_cons_self),
      ih fun d hd => h d (List.mem_cons_of_mem _ hd), List.append_assoc]
    rfl

theorem joinPath_length_le : (joinPath stack).length ≤ (joinPath (stack ++ init)).length := by
  induction init using List.reverseRecOn with
  | nil => rw [List.append_nil]
  | append_singleton init c ih =>
    rw [← List.append_assoc, joinPath_push, List.length_append]
    exact (ih.trans joinPath_prefix.length_le).trans (Nat.le_add_right ..)

/-- The components of a text that fits fit one after the other. -/
theorem pathsFit_canonical (h : ∀ c ∈ stack, CanonicalComponent c)
    (hfits : PathFits capacity (init ++ stack)) : PathsFit capacity init stack := by
  induction stack generalizing init with
  | nil => trivial
  | cons c stack ih =>
    have hc := h c List.mem_cons_self
    have hcons : init ++ c :: stack = (init ++ [c]) ++ stack := by simp
    rw [hcons] at hfits
    refine ⟨?_, ?_⟩
    · change PathFits capacity (pathStep init c)
      rw [pathStep_canonical hc]
      exact (Nat.add_le_add_right joinPath_length_le 1).trans hfits
    · rw [pathStep_canonical hc]
      exact ih (fun d hd => h d (List.mem_cons_of_mem _ hd)) hfits

theorem Holds.stringAt (h : Holds capacity stack s) (hend : s.out s.pos = 0)
    (hnul : ∀ x ∈ joinPath stack, x ≠ 0) : StringAt s.out 0 (joinPath stack) := by
  refine ⟨fun i hi => ?_, ?_, hnul⟩
  · rw [Nat.zero_add]
    exact h.shows.out i hi
  · rw [Nat.zero_add, ← h.shows.pos]
    exact hend

theorem pathComponents_joinPath {l : List UInt8} (h : ∀ c ∈ stack, CanonicalComponent c) :
    pathComponents l (joinPath stack) = stack := by
  have hhead : (joinPath stack).head? = some slash := by
    cases stack with
    | nil => rfl
    | cons c stack => rfl
  rw [pathComponents, if_pos hhead, words_joinPath h]

/-- A canonical text that fits is normalised to itself. -/
theorem pathNormalize_again (hsmall : 2 ≤ capacity) (hcapacity : capacity ≤ pathCapacity)
    (h : ∀ c ∈ stack, CanonicalComponent c) (hfits : PathFits capacity stack)
    (hinput : input.chars = joinPath stack) : ∃ s',
      pathNormalize (some cwd) (some input) capacity s = .ok () s' ∧
        StringAt s'.out 0 input.chars := by
  have hcomponents : pathComponents cwd.chars input.chars = stack := by
    rw [hinput, pathComponents_joinPath h]
  have hcountable : Countable capacity (pathComponents cwd.chars input.chars) := by
    rw [hcomponents]
    intro c hc
    obtain ⟨a, b, rfl⟩ := List.append_of_mem hc
    have hle := (List.prefix_append (a ++ [c]) b).length_le
    have htext : (joinPath (a ++ [c])).length ≤ (joinPath (a ++ c :: b)).length := by
      rw [show a ++ c :: b = (a ++ [c]) ++ b by simp]
      exact joinPath_length_le
    have hlimit : pathCapacity = 128 := rfl
    rw [joinPath_push, List.length_append] at htext
    unfold PathFits at hfits
    omega
  have hends := pathNormalize_ends (s := s) hsmall hcapacity hcountable
  rw [hcomponents] at hends
  have hok : Ends (pathNormalize (some cwd) (some input) capacity) s
      (fun _ s' => StringAt s'.out 0 input.chars) (fun _ _ => False) := by
    refine Ends.mono hends ?_ fun _ _ hbad => hbad (pathsFit_canonical h hfits)
    rintro _ s' ⟨-, hholds, hend⟩
    rw [foldl_pathStep_canonical h, List.nil_append] at hholds
    rw [hinput]
    exact hholds.stringAt hend (hinput ▸ input.noNul)
  obtain ⟨_, s', hrun, htext⟩ := hok.exists_ok
  exact ⟨s', hrun, htext⟩

/-- `path_normalize` returns true exactly if the text fits after each component, and its output is
then the normalised text, which is canonical, has no lower-case letter and is its own normalised
text. No store leaves the buffer. -/
theorem pathNormalize_normalises (cwd input : CString) (capacity : Nat) (hsmall : 2 ≤ capacity)
    (hcapacity : capacity ≤ pathCapacity)
    (hcountable : ∀ c ∈ pathComponents cwd.chars input.chars, c.length + capacity ≤ 2 ^ 32)
    (s : PathState) :
    (pathNormalize (some cwd) (some input) capacity s).result.isSome = true ∧
    ((pathNormalize (some cwd) (some input) capacity s).isOk = true ↔
      PathsFit capacity [] (pathComponents cwd.chars input.chars)) ∧
    ∀ s', pathNormalize (some cwd) (some input) capacity s = .ok () s' →
      StringAt s'.out 0 (joinPath (normalComponents cwd.chars input.chars)) ∧
      Canonical (joinPath (normalComponents cwd.chars input.chars))
        (normalComponents cwd.chars input.chars) ∧
      (∀ x ∈ joinPath (normalComponents cwd.chars input.chars), ¬ (0x61 ≤ x ∧ x ≤ 0x7A)) ∧
      ∀ (other text : CString) (t : PathState),
        text.chars = joinPath (normalComponents cwd.chars input.chars) →
        ∃ t', pathNormalize (some other) (some text) capacity t = .ok () t' ∧
          StringAt t'.out 0 text.chars := by
  have hends := pathNormalize_ends (s := s) hsmall hcapacity hcountable
  refine ⟨hends.result_isSome, ?_, fun s' hrun => ?_⟩
  · exact (Ends.mono hends (fun _ _ h => h.1) fun _ _ h => h).isOk_iff
  · obtain ⟨-, hholds, hend⟩ := hends.of_ok hrun
    refine ⟨hholds.stringAt hend normalText_noNul, ⟨rfl, hholds.canonical⟩, normalText_not_lower, ?_⟩
    intro other text t htext
    exact pathNormalize_again hsmall hcapacity hholds.canonical hholds.fits htext

/-- `/MYDIR`. -/
def cwdMydir : CString := ⟨[0x2F, 0x4D, 0x59, 0x44, 0x49, 0x52], by simp⟩

/-- `../a`. -/
def inputUpA : CString := ⟨[0x2E, 0x2E, 0x2F, 0x61], by simp⟩

theorem pathNormalize_normalises_upA :
    (pathNormalize (some cwdMydir) (some inputUpA) 128 ⟨fun _ => 0, 0, fun _ => 0, 0⟩).isOk = true ∧
    ∀ s', pathNormalize (some cwdMydir) (some inputUpA) 128 ⟨fun _ => 0, 0, fun _ => 0, 0⟩
      = .ok () s' → StringAt s'.out 0 [0x2F, 0x41] := by
  have hcomponents : pathComponents cwdMydir.chars inputUpA.chars
      = [[0x4D, 0x59, 0x44, 0x49, 0x52], [0x2E, 0x2E], [0x61]] := by decide
  obtain ⟨-, hok, hout⟩ := pathNormalize_normalises cwdMydir inputUpA 128 (by decide) (by decide)
    (by rw [hcomponents]; simp) ⟨fun _ => 0, 0, fun _ => 0, 0⟩
  constructor
  · rw [hok, hcomponents]
    unfold PathsFit PathFits
    decide
  · intro s' hrun
    have htext := (hout s' hrun).1
    rw [normalComponents, hcomponents] at htext
    exact htext

/-! ## A component of 4 GiB -/

/-- A component of dots only. -/
def dots (n : Nat) : CString := ⟨List.replicate n dot, fun c hc => by
  rw [List.eq_of_mem_replicate hc]
  decide⟩

variable {n : Nat}

theorem takeWhile_dots : (dots n).chars.takeWhile (· != slash) = (dots n).chars := by
  rw [dots, List.takeWhile_replicate, if_pos (by decide)]

theorem dropWhile_dots : (dots n).chars.dropWhile (· != slash) = [] := by
  rw [dots, List.dropWhile_replicate, if_pos (by decide)]

/-- A component whose length is counted as 1 is taken for `.`. -/
theorem absorbPath_dots (h : n % 2 ^ 32 = 1) : Ends (absorbPath capacity (dots n).chars) s
    (fun _ s' => s' = s) (fun _ _ => False) := by
  have hpos : 0 < n := Nat.pos_of_ne_zero fun h0 => by simp [h0] at h
  have hlength : (dots n).chars.length = n := List.length_replicate
  have hfirst : (dots n).chars.getD 0 0 = dot := by
    rw [dots, List.getD_eq_getElem?_getD, List.getElem?_replicate_of_lt hpos, Option.getD_some]
  refine Ends.loop (fun k cursor s' => s' = s ∧
    (k = 1 ∧ cursor = (dots n).chars ∨ k = 0 ∧ cursor = []))
    ?_ ((dots n).chars.length + 1) 1 _ s (by omega) ⟨rfl, .inl ⟨rfl, ?_⟩⟩
  · rintro k cursor _ ⟨rfl, ⟨rfl, rfl⟩ | ⟨rfl, rfl⟩⟩
    · unfold absorbComponent
      refine Ends.ite (fun _ => Ends.pure rfl) fun _ => ?_
      rw [takeWhile_dots, dropWhile_dots, hlength, h, applyComponent, if_pos ⟨rfl, hfirst⟩]
      exact ⟨0, Nat.one_pos, rfl, .inr ⟨rfl, rfl⟩⟩
    · exact Ends.pure rfl
  · rw [dots, List.dropWhile_replicate, if_neg (by decide)]

theorem pathComponents_dots (hpos : 0 < n) :
    pathComponents [slash] (dots n).chars = [(dots n).chars] := by
  have hhead : (dots n).chars.head? ≠ some slash := by
    rw [dots, List.head?_replicate, if_neg hpos.ne']
    decide
  have hwords : words (· == slash) (dots n).chars = [(dots n).chars] := by
    refine words_last (fun x hx => ?_) ?_
    · rw [List.eq_of_mem_replicate hx]
      decide
    · exact List.ne_nil_of_length_pos (hpos.trans_eq List.length_replicate.symm)
  rw [pathComponents, if_neg hhead, hwords]
  rfl

theorem not_pathsFit_dots (hlong : 128 < n) : ¬ PathsFit 128 [] [(dots n).chars] := by
  rintro ⟨hfit, -⟩
  have hlength : (dots n).chars.length = n := List.length_replicate
  have hdot : (dots n).chars ≠ [dot] := fun h => by
    rw [h, List.length_singleton] at hlength
    omega
  have hdots : (dots n).chars ≠ [dot, dot] := fun h => by
    rw [h, List.length_cons, List.length_singleton] at hlength
    omega
  change PathFits 128 (pathStep [] (dots n).chars) at hfit
  rw [pathStep, if_neg hdot, if_neg hdots, PathFits, joinPath_push, List.length_append,
    List.length_map, hlength] at hfit
  omega

/-- `/`. -/
def rootPath : CString := ⟨[slash], fun c hc => by
  rw [List.mem_singleton.mp hc]
  decide⟩

theorem pathNormalize_dots (h : n % 2 ^ 32 = 1) (hlong : 128 < n) :
    (pathNormalize (some rootPath) (some (dots n)) 128 s).isOk = true ∧
      ¬ PathsFit 128 [] (pathComponents rootPath.chars (dots n).chars) := by
  have hhead : (dots n).chars.head? ≠ some slash := by
    rw [dots, List.head?_replicate, if_neg (by omega)]
    decide
  constructor
  · have hends : Ends (pathNormalize (some rootPath) (some (dots n)) 128) s
        (fun _ _ => True) (fun _ _ => ¬ True) := by
      unfold pathNormalize
      refine Ends.ite (fun hbad => absurd hbad (by decide)) fun _ => Ends.modify_bind ?_
      refine Ends.of_bind_ok (storeOut_ok (by decide)) (Ends.of_bind_ok (storeOut_ok (by decide)) ?_)
      rw [if_pos hhead]
      have hroot : Holds 128 [] ⟨Function.update (Function.update s.out 0 slash) 1 0, 1,
          s.starts, 0⟩ := holds_nil (by decide) (by simp [Function.update])
      have hcwd : Ends (absorbPath 128 rootPath.chars) _ _ _ :=
        absorbPath_ends hroot (by decide) le_rfl fun c hc => absurd hc List.not_mem_nil
      refine Ends.bind hcwd (fun _ _ hbad => absurd trivial hbad) fun _ s₁ h₁ => ?_
      refine Ends.bind (absorbPath_dots h) (fun _ _ h => h.elim) ?_
      rintro _ _ rfl
      refine Ends.get_bind ?_
      unfold Ends
      rw [storeOut_ok (by rw [h₁.2.shows.pos]; exact Nat.lt_of_succ_le h₁.2.fits)]
      trivial
    exact hends.isOk_iff.mpr trivial
  · rw [show rootPath.chars = [slash] from rfl, pathComponents_dots (by omega)]
    exact not_pathsFit_dots hlong

/-- The text of 2^32 + 1 dots does not fit, and the path is normalised to the root. -/
theorem pathNormalize_wrapped :
    (pathNormalize (some rootPath) (some (dots (2 ^ 32 + 1))) 128
      ⟨fun _ => 0, 0, fun _ => 0, 0⟩).isOk = true ∧
      ¬ PathsFit 128 [] (pathComponents rootPath.chars (dots (2 ^ 32 + 1)).chars) :=
  pathNormalize_dots (by decide) (by decide)

end FunnyOS.Paths
