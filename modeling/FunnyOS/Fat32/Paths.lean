import FunnyOS.Fat32.NameSpec

/-!
# Path texts

The components that `resolve_path` cuts a path into, and how `split_path` and `fat32_stat` see
the last of them. `Canonical` describes the texts that `path_normalize` produces: a slash
before each component, no empty, `.` or `..` component, no lower-case letter.
-/

namespace FunnyOS.Fat32

open Prog

section

variable {a b c name path : CStr}

/-! ## Components -/

theorem splitComponents_cons_slash : splitComponents (slash :: a) = splitComponents a := by
  rw [splitComponents.eq_def (slash :: a)]
  exact if_pos rfl

/-- The recursion of `splitComponents` inside a component. -/
theorem splitComponents_cons {x : UInt8} (hx : x ≠ slash) : splitComponents (x :: a) =
    match a, splitComponents a with
    | [], _ => [[x]]
    | d :: _, components =>
      if d = slash then [x] :: components
      else match components with
        | [] => [[x]]
        | head :: tail => (x :: head) :: tail := by
  rw [splitComponents.eq_def (x :: a)]
  exact if_neg hx

/-- A text without slashes is one component. -/
theorem splitComponents_word (h : ∀ x ∈ a, x ≠ slash) (hne : a ≠ []) : splitComponents a = [a] := by
  induction a with
  | nil => exact absurd rfl hne
  | cons x a ih =>
    have hx : x ≠ slash := h x (by simp)
    cases a with
    | nil => rw [splitComponents_cons hx]
    | cons y a =>
      have hy : y ≠ slash := h y (by simp)
      have := ih (fun z hz => h z (by simp [hz])) (by simp)
      rw [splitComponents_cons hx]
      simp [this, hy]

/-- A path is cut at a slash. -/
theorem splitComponents_append :
    splitComponents (a ++ slash :: b) = splitComponents a ++ splitComponents b := by
  induction a with
  | nil => rw [List.nil_append, splitComponents_cons_slash]; rfl
  | cons x a ih =>
    by_cases hx : x = slash
    · rw [hx, List.cons_append, splitComponents_cons_slash, splitComponents_cons_slash, ih]
    · rw [List.cons_append, splitComponents_cons hx, splitComponents_cons hx]
      cases a with
      | nil =>
        have : splitComponents (slash :: b) = splitComponents b := splitComponents_cons_slash
        simp [this]
      | cons y a =>
        rw [ih]
        by_cases hy : y = slash
        · simp [hy]
        · cases hs : splitComponents (y :: a) with
          | nil =>
            -- the text starts with a component
            exfalso
            rw [splitComponents_cons hy] at hs
            cases a with
            | nil => simp at hs
            | cons z a =>
              simp only at hs
              split at hs
              · simp at hs
              · split at hs <;> simp at hs
          | cons head tail => simp [hy]

/-! ## The last component -/

/-- The text behind the last slash. -/
theorem splitPath_parts (hslash : slash ∈ path)
    (hname : (path.reverse.takeWhile (· != slash)).reverse = name) :
    path = path.take (path.length - name.length - 1) ++ slash :: name ∧
      ∀ x ∈ name, x ≠ slash := by
  have hfree : ∀ x ∈ name, x ≠ slash := by
    intro x hx
    rw [← hname, List.mem_reverse] at hx
    simpa using List.mem_takeWhile_imp hx
  refine ⟨?_, hfree⟩
  have hsplit := List.takeWhile_append_dropWhile (p := (· != slash)) (l := path.reverse)
  cases hd : path.reverse.dropWhile (· != slash) with
  | nil =>
    have hall := List.dropWhile_eq_nil_iff.mp hd slash (by simpa using hslash)
    simp at hall
  | cons x rest =>
    have hx : x = slash := by
      have h₁ := List.head_dropWhile_not (· != slash) (l := path.reverse) (by simp [hd])
      simpa [hd] using h₁
    have hpath : path = rest.reverse ++ slash :: name := by
      have h₂ := congrArg List.reverse hsplit
      rw [List.reverse_append, hname, hd, hx] at h₂
      simpa using h₂.symm
    have hlen : path.length - name.length - 1 = rest.length := by
      have := congrArg List.length hpath
      simp only [List.length_append, List.length_reverse, List.length_cons] at this
      omega
    rw [hlen]
    conv => rhs; rw [hpath]
    rw [List.take_left' (by simp)]
    exact hpath

/-- `split_path` takes the last component off. -/
theorem splitPath_sat {s : State} : Sat (splitPath path) s
    (fun r s' => s' = s ∧ splitComponents path = splitComponents r.1 ++ [r.2] ∧
      (path = r.1 ++ slash :: r.2 ∨ r.1 = [slash] ∧ path = slash :: r.2))
    (fun e s' => s' = s ∧ e = .invalidName) := by
  refine Sat.ite (fun _ => Sat.raise ⟨rfl, rfl⟩) (fun hpath => ?_)
  simp only
  generalize hname : (path.reverse.takeWhile (· != slash)).reverse = name
  refine Sat.ite (fun _ => Sat.raise ⟨rfl, rfl⟩) (fun hne => ?_)
  refine Sat.ite (fun _ => Sat.fault) (fun _ => ?_)
  refine Sat.ite (fun _ => Sat.raise ⟨rfl, rfl⟩) (fun _ => Sat.pure ?_)
  have hhead : path.head? = some slash := by
    by_contra h
    exact hpath (.inl h)
  have hslash : slash ∈ path := List.mem_of_mem_head? (by rw [hhead]; rfl)
  obtain ⟨hsplit, hfree⟩ := splitPath_parts hslash hname
  generalize hparent : path.take (path.length - name.length - 1) = parent at hsplit
  have hcomp : splitComponents path = splitComponents parent ++ [name] := by
    rw [hsplit, splitComponents_append, splitComponents_word hfree hne]
  refine ⟨rfl, ?_⟩
  by_cases hp : parent = []
  · rw [if_pos hp]
    refine ⟨?_, .inr ⟨rfl, by rw [hsplit, hp]; rfl⟩⟩
    rw [hcomp, hp]
    rfl
  · rw [if_neg hp]
    exact ⟨hcomp, .inl hsplit⟩

theorem lastComponentText_word {last : CStr} (hfree : ∀ x ∈ b, x ≠ slash) :
    lastComponentText last b = last := by
  induction b with
  | nil => rfl
  | cons x b ih =>
    rw [lastComponentText, if_neg fun hx => hfree x (by simp) hx.1]
    exact ih fun y hy => hfree y (by simp [hy])

/-- The text that `fat32_stat` reports as the name. -/
theorem lastComponentText_eq {last : CStr} (hfree : ∀ x ∈ b, x ≠ slash) (hne : b ≠ []) :
    lastComponentText last (a ++ slash :: b) = b := by
  induction a generalizing last with
  | nil => rw [List.nil_append, lastComponentText, if_pos ⟨rfl, hne⟩, lastComponentText_word hfree]
  | cons x a ih =>
    rw [List.cons_append, lastComponentText]
    split <;> exact ih

/-! ## Canonical paths -/

/-- A component of a path that `path_normalize` produces. -/
structure CanonicalComponent (c : CStr) : Prop where
  ne_nil : c ≠ []
  no_slash : ∀ x ∈ c, x ≠ slash
  ne_dot : c ≠ [0x2E]
  ne_dots : c ≠ [0x2E, 0x2E]
  upper : c.map kToupper = c

/-- The path with the given components. -/
def joinPath : List CStr → CStr
  | [] => [slash]
  | components => components.flatMap (fun c => slash :: c)

/-- A path that `path_normalize` produces, with its components. -/
structure Canonical (path : CStr) (components : List CStr) : Prop where
  text : path = joinPath components
  components : ∀ c ∈ components, CanonicalComponent c

theorem joinPath_snoc {cs : List CStr} : joinPath (cs ++ [c]) = cs.flatMap (slash :: ·) ++ slash :: c := by
  cases cs with
  | nil => simp [joinPath]
  | cons x cs => simp [joinPath]

theorem splitComponents_flatMap {cs : List CStr} (h : ∀ c ∈ cs, CanonicalComponent c) :
    splitComponents (cs.flatMap (slash :: ·)) = cs := by
  induction cs with
  | nil => rfl
  | cons c cs ih =>
    have hc := h c (by simp)
    have hrest := ih fun x hx => h x (by simp [hx])
    rw [List.flatMap_cons, List.cons_append, splitComponents_cons_slash]
    cases cs with
    | nil => simpa using splitComponents_word hc.no_slash hc.ne_nil
    | cons d cs =>
      rw [List.flatMap_cons, List.cons_append] at hrest ⊢
      rw [splitComponents_cons_slash] at hrest
      rw [splitComponents_append, splitComponents_word hc.no_slash hc.ne_nil, hrest]
      rfl

/-- The components of a canonical path are what `resolve_path` walks along. -/
theorem Canonical.splitComponents_eq {cs : List CStr} (h : Canonical path cs) :
    splitComponents path = cs := by
  rw [h.text]
  cases cs with
  | nil => rfl
  | cons c cs => exact splitComponents_flatMap h.components

theorem Canonical.lastComponentText_eq {cs : List CStr} (h : Canonical path (cs ++ [c])) :
    lastComponentText path path = c := by
  have hc := h.components c (by simp)
  conv => lhs; rw [h.text, joinPath_snoc]
  exact Fat32.lastComponentText_eq hc.no_slash hc.ne_nil

/-- Two upper-case names that are equal up to the case of letters are equal. -/
theorem eq_of_nameEquals {found : CStr} (h : nameEqualsIgnoreCase found a = true)
    (h' : nameEqualsIgnoreCase found b = true) (ha : a.map kToupper = a)
    (hb : b.map kToupper = b) : a = b := by
  simp only [nameEqualsIgnoreCase, beq_iff_eq] at h h'
  rw [← ha, ← h, h', hb]

end

end FunnyOS.Fat32
