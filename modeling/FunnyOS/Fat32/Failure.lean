import FunnyOS.Fat32.Check
import FunnyOS.Fat32.Reading

/-!
# Calls that fail

A call that fails with another code than `FAT32_IO_ERROR` is invisible: whatever space it has taken
by then, `fat32_stat`, `fat32_list_dir` and `fat32_read_file` answer as before.
-/

namespace FunnyOS.Fat32

open Prog

section

variable {ok : List DirectoryEntry → Prop} [DirRules ok] {g : Geometry} {v v' : Volume}
  {D : Nat → Prop} {own own' : Owner → List Nat} {env : Env} {s s' : State} {path : CStr}
  {e : DirectoryEntry} {a : List CStr}

omit [DirRules ok] in
/-- Paths resolve as before. -/
theorem Untouched.resolve_eq (hs : Sound ok g v D own) (h : Untouched ok g v v' D own own') :
    resolve g v' a = resolve g v a := by
  refine resolve_congr fun b name c r _ hr hd => ?_
  rw [(h.dirs _ (hs.dir_of_resolve hr hd)).2]

omit [DirRules ok] in
/-- Files have the content that they had before. -/
theorem Untouched.fileContent_eq (hs : Sound ok g v D own) (h : Untouched ok g v v' D own own')
    (hr : resolve g v a = .ok (some e)) (hfile : e.isDirectory = false) :
    fileContent g v' e = fileContent g v e := by
  obtain ⟨d, it, hd, hit, rfl⟩ := hs.entry_of_resolve hr
  have hit' : it ∈ itemsOf (dirEntries g v' d) := by
    rw [(h.dirs d hd).2]
    exact hit
  exact fileContent_congr (hs.entryOk hd hit) (h.sound.entryOk hd hit') hfile
    (h.content d it.index it.entry hd (liveEntries_item hit))

/-- Nobody notices what the call has done. -/
theorem Untouched.sameAnswers (hfuel : env.geometry.totalClusters < env.fuel)
    (hrel : ¬ env.Faulty) (hs : Sound ok env.geometry (s.volume env.geometry) D own)
    (h : Untouched ok env.geometry (s.volume env.geometry) (s'.volume env.geometry) D own own') :
    SameAnswers env s s' path := by
  have hres := h.resolve_eq (a := splitComponents path) hs
  refine sameAnswers_of_volume hfuel hrel hs h.sound ?_ ?_ ?_
  · rw [statAt, statAt, hres]
  · intro κ callback context
    unfold scanAnswer
    rw [hres]
    rcases hr : resolve env.geometry (s.volume env.geometry) (splitComponents path) with e | r
    · rfl
    · by_cases hd : isDir r = true
      · simp only [hd, if_true, (h.dirs _ (hs.dir_of_resolve hr hd)).2]
      · simp only [hd, if_false, Bool.false_eq_true]
  · unfold contents
    rw [hres]
    rcases hr : resolve env.geometry (s.volume env.geometry) (splitComponents path) with e | _ | e
    · rfl
    · rfl
    · by_cases hd : e.isDirectory = true
      · simp only [hd, if_true]
      · simp only [hd, if_false, Bool.false_eq_true]
        exact h.fileContent_eq hs hr (Bool.eq_false_iff.mpr hd)

end

/-- Whatever code a call returns instead of `FAT32_OK`, nobody notices that it was made. -/
theorem sameAnswers_of_error {env : Env} {s s' : State} {op : Operation} {e : Fat32Result}
    (hfuel : env.geometry.totalClusters < env.fuel) (hrel : ¬ env.Faulty)
    (hwf : WellFormed env.geometry (s.volume env.geometry))
    (hdata : ∀ path data append, op = .writeFile path data append → data.length ≤ 2 ^ 31)
    (hcall : op.call env s = .error e s') (path : CStr) : SameAnswers env s s' path := by
  have hs := hwf.sound
  have hsame : s'.volume env.geometry = s.volume env.geometry → SameAnswers env s s' path := by
    intro hv
    have hsame : Untouched (Tidy SlotTidy) env.geometry (s.volume env.geometry)
        (s'.volume env.geometry) (Reachable env.geometry (s.volume env.geometry))
        (owners env.geometry (s.volume env.geometry))
        (owners env.geometry (s.volume env.geometry)) := by
      rw [hv]
      exact Untouched.refl hs
    exact hsame.sameAnswers hfuel hrel hs
  cases op with
  | writeFile path data append =>
    rcases (fat32WriteFile_sat hfuel hrel rfl hs (hdata _ _ _ rfl)).of_error hcall with
      hv | ⟨cs, r, parentDir, name, parentPath, own', -, hf⟩
    · exact hsame hv
    · exact hf.untouched.sameAnswers hfuel hrel hs
  | makeDir path =>
    rcases (fat32MakeDir_sat hfuel hrel rfl hs).of_error hcall with
      hv | ⟨cs, r, parentDir, name, parentPath, -, hf⟩
    · exact hsame hv
    · exact hf.untouched.sameAnswers hfuel hrel hs
  | remove path => exact hsame ((fat32Remove_sat hfuel hrel rfl hs).of_error hcall)
  | rename oldPath newPath => exact hsame ((fat32Rename_sat hfuel hrel rfl hs).of_error hcall)

theorem sameAnswers_of_error_noSpace : SameAnswers smallEnv almostFullState
    (afterCall (.writeFile [slash, 0x41] (List.replicate 1025 0) false) almostFullState)
    [slash, 0x41] := by
  refine sameAnswers_of_error (e := .noSpace) (by decide) smallEnv_reliable
    (sound_of_check almostFullState_check).2 ?_ (Prog.eq_error_of_code (by decide +kernel)) _
  intro path data append h
  cases h
  rw [List.length_replicate]
  decide

end FunnyOS.Fat32
