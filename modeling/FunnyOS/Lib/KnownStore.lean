import FunnyOS.Lib.Run

/-!
# Stores whose writes may fail

A store holds a value in each of its cells. A write covers some cells; when it fails, nothing is
known any more of the cells that it covers, since any part of it may have been done. `Known κ β` is
what is known of the cells, `StoreStep` what an event tells about them, and `Known.Of store` says
that what is known is true.
-/

namespace FunnyOS

open Classical

/-- What is known of the cells. -/
abbrev Known (κ β : Type) := κ → Option β

/-- A transfer that covers some cells: the data that was written or delivered, and whether the
transfer has succeeded. -/
structure Transfer (κ β : Type) where
  write : Bool
  cells : κ → Prop
  data : κ → β
  ok : Bool

variable {κ β : Type} {known known' : Known κ β} {cells : κ → Prop} {data : κ → β} {k : κ}
  {store store' : κ → β} {t : Transfer κ β} {ts : List (Transfer κ β)}

namespace Known

/-- Nothing is known of the cells any more. -/
noncomputable def forget (known : Known κ β) (cells : κ → Prop) : Known κ β := fun k =>
  if cells k then none else known k

/-- The cells hold the data. -/
noncomputable def put (known : Known κ β) (cells : κ → Prop) (data : κ → β) : Known κ β := fun k =>
  if cells k then some (data k) else known k

/-- Everything is known. -/
def all (store : κ → β) : Known κ β := fun k => some (store k)

/-- What is known is true. -/
def Of (known : Known κ β) (store : κ → β) : Prop := ∀ k b, known k = some b → store k = b

theorem of_all : (all store).Of store := fun _ _ h => Option.some.inj h

theorem forget_of_mem (h : cells k) : known.forget cells k = none := if_pos h

theorem forget_of_not_mem (h : ¬ cells k) : known.forget cells k = known k := if_neg h

theorem put_of_mem (h : cells k) : known.put cells data k = some (data k) := if_pos h

theorem put_of_not_mem (h : ¬ cells k) : known.put cells data k = known k := if_neg h

/-- A write of no cells. -/
theorem put_of_empty (h : ∀ k, ¬ cells k) : known.put cells data = known :=
  funext fun k => put_of_not_mem (h k)

/-- Cells that are known behind a write that has failed were known before it. -/
theorem eq_of_forget {b : β} (h : known.forget cells k = some b) :
    ¬ cells k ∧ known k = some b := by
  by_cases hk : cells k
  · rw [forget_of_mem hk] at h
    cases h
  · rw [forget_of_not_mem hk] at h
    exact ⟨hk, h⟩

/-- To forget is safe where the other cells are as they were. -/
theorem Of.forget (h : known.Of store) (hsame : ∀ k, ¬ cells k → store' k = store k) :
    (known.forget cells).Of store' := by
  intro k b hb
  obtain ⟨hk, hb⟩ := eq_of_forget hb
  rw [hsame k hk]
  exact h k b hb

theorem Of.put (h : (known.forget cells).Of store) (hdata : ∀ k, cells k → store k = data k) :
    (known.put cells data).Of store := by
  intro k b hb
  by_cases hk : cells k
  · rw [put_of_mem hk] at hb
    rw [hdata k hk]
    exact Option.some.inj hb
  · rw [put_of_not_mem hk] at hb
    exact h k b ((forget_of_not_mem hk).trans hb)

/-- A store that differs only where nothing is known. -/
theorem Of.congr (h : known.Of store) (hsame : ∀ k, known k ≠ none → store' k = store k) :
    known.Of store' := by
  intro k b hb
  rw [hsame k fun hnone => by rw [hnone] at hb; cases hb]
  exact h k b hb

end Known

/-- What a transfer tells about the cells. -/
inductive StoreStep (known : Known κ β) : Transfer κ β → Known κ β → Prop
  | written (cells : κ → Prop) (data : κ → β) :
      StoreStep known ⟨true, cells, data, true⟩ (known.put cells data)
  | damaged (cells : κ → Prop) (data : κ → β) :
      StoreStep known ⟨true, cells, data, false⟩ (known.forget cells)
  | read (cells : κ → Prop) (data : κ → β)
      (hdata : ∀ k b, cells k → known k = some b → data k = b) :
      StoreStep known ⟨false, cells, data, true⟩ known
  | unread (cells : κ → Prop) (data : κ → β) :
      StoreStep known ⟨false, cells, data, false⟩ known

/-- The transfer does not write the cell. -/
def Transfer.Spares (t : Transfer κ β) (k : κ) : Prop := t.write = true → ¬ t.cells k

/-- What is known of a cell stays known until a transfer writes it. -/
theorem StoreStep.spares (h : StoreStep known t known') (hk : t.Spares k) : known' k = known k := by
  cases h with
  | written => exact Known.put_of_not_mem (hk rfl)
  | damaged => exact Known.forget_of_not_mem (hk rfl)
  | read => rfl
  | unread => rfl

theorem StoreStep.run_spares (h : Runs StoreStep known ts known') (hk : ∀ t ∈ ts, t.Spares k) :
    known' k = known k := by
  induction h with
  | nil => rfl
  | cons first _ ih =>
    rw [ih fun t ht => hk t (List.mem_cons_of_mem _ ht)]
    exact first.spares (hk _ List.mem_cons_self)

/-- A read delivers what the last write of the cell has written, whatever has happened before it and
to other cells since. -/
theorem StoreStep.readsBack {before after : List (Transfer κ β)} {w r : Transfer κ β}
    (h : Runs StoreStep known (before ++ w :: (after ++ [r])) known') (hw : w.write = true)
    (hwok : w.ok = true) (hr : r.write = false) (hrok : r.ok = true) (hkw : w.cells k)
    (hkr : r.cells k) (hafter : ∀ t ∈ after, t.Spares k) : r.data k = w.data k := by
  obtain ⟨known₁, -, hrest⟩ := h.split
  cases hrest with
  | @cons _ known₂ _ _ _ first hrest =>
    obtain ⟨known₃, hmid, hlast⟩ := hrest.split
    have hkept := StoreStep.run_spares hmid hafter
    have hput : known₂ k = some (w.data k) := by
      cases first with
      | written => exact Known.put_of_mem hkw
      | damaged => cases hwok
      | read => cases hw
      | unread => cases hw
    cases hlast with
    | cons last _ =>
      cases last with
      | written => cases hr
      | damaged => cases hr
      | read _ _ hdata => exact hdata k _ hkr (hkept.trans hput)
      | unread => cases hrok

/-- Only the data of the cells that are covered matters. -/
theorem StoreStep.congr {write ok : Bool} {data' : κ → β}
    (h : StoreStep known ⟨write, cells, data, ok⟩ known')
    (hdata : ∀ k, cells k → data' k = data k) :
    StoreStep known ⟨write, cells, data', ok⟩ known' := by
  cases h with
  | written =>
    have hput : known.put cells data = known.put cells data' := by
      funext k
      by_cases hk : cells k
      · rw [Known.put_of_mem hk, Known.put_of_mem hk, hdata k hk]
      · rw [Known.put_of_not_mem hk, Known.put_of_not_mem hk]
    rw [hput]
    exact .written cells data'
  | damaged => exact .damaged cells data'
  | read _ _ hread => exact .read cells data' fun k b hk hb => (hdata k hk).trans (hread k b hk hb)
  | unread => exact .unread cells data'

/-! ## Parts of cells -/

section

variable {κ' β' : Type} {part : κ' → κ} {value : κ' → β → β'}

/-- What is known of the parts of the cells: `part` says which cell they are parts of, and `value`
what they hold. -/
def Known.through (known : Known κ β) (part : κ' → κ) (value : κ' → β → β') : Known κ' β' :=
  fun k => (known (part k)).map (value k)

/-- The transfer as one of the parts. -/
def Transfer.through (t : Transfer κ β) (part : κ' → κ) (value : κ' → β → β') : Transfer κ' β' :=
  ⟨t.write, fun k => t.cells (part k), fun k => value k (t.data (part k)), t.ok⟩

theorem StoreStep.through (h : StoreStep known t known') :
    StoreStep (known.through part value) (t.through part value) (known'.through part value) := by
  cases h with
  | written cells data =>
    have hput : (known.put cells data).through part value =
        (known.through part value).put (fun k => cells (part k))
          fun k => value k (data (part k)) := by
      funext k
      by_cases hk : cells (part k)
      · refine (congrArg (Option.map (value k)) (Known.put_of_mem hk)).trans ?_
        exact Eq.symm (Known.put_of_mem hk)
      · refine (congrArg (Option.map (value k)) (Known.put_of_not_mem hk)).trans ?_
        exact Eq.symm (Known.put_of_not_mem hk)
    rw [hput]
    exact .written _ _
  | damaged cells data =>
    have hforget : (known.forget cells).through part value =
        (known.through part value).forget fun k => cells (part k) := by
      funext k
      by_cases hk : cells (part k)
      · refine (congrArg (Option.map (value k)) (Known.forget_of_mem hk)).trans ?_
        exact Eq.symm (Known.forget_of_mem hk)
      · refine (congrArg (Option.map (value k)) (Known.forget_of_not_mem hk)).trans ?_
        exact Eq.symm (Known.forget_of_not_mem hk)
    rw [hforget]
    exact .damaged _ _
  | read cells data hdata =>
    refine .read _ _ fun k b hk hb => ?_
    obtain ⟨a, ha, rfl⟩ := Option.map_eq_some_iff.mp hb
    exact congrArg (value k) (hdata _ _ hk ha)
  | unread => exact .unread _ _

end

end FunnyOS
