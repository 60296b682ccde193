import FunnyOS.Fat32.Check

/-!
# Well-formed volumes stay well formed

Runs of the operations that change the volume keep it well formed, as long as it holds what the
driver itself would have written (`Regular`). Each of the three conditions of `Regular` is needed.
-/

namespace FunnyOS.Fat32

/-- Whatever the calls of a run return, a regular well-formed volume stays regular and well
formed. -/
theorem wellFormed_of_run {env : Env} {s s' : State} {ops : List Operation}
    (hfuel : env.geometry.totalClusters < env.fuel) (hrel : ¬ env.Faulty)
    (hwf : WellFormed env.geometry (s.volume env.geometry))
    (hreg : Regular env.geometry (s.volume env.geometry))
    (hrun : Runs (AdmissibleStep env) s ops s') :
    WellFormed env.geometry (s'.volume env.geometry) ∧
      Regular env.geometry (s'.volume env.geometry) :=
  regular_of_run hfuel hrel hrun hwf hreg

theorem wellFormed_of_run_makeDir : ∃ s', Runs (AdmissibleStep smallEnv) emptyState
      [.makeDir [slash, 0x41]] s' ∧
    WellFormed smallGeometry (s'.volume smallGeometry) ∧
      Regular smallGeometry (s'.volume smallGeometry) := by
  have hrun : Runs (AdmissibleStep smallEnv) emptyState [.makeDir [slash, 0x41]]
      (afterCall (.makeDir [slash, 0x41]) emptyState) :=
    .cons ⟨canonicalPath_letter (by decide) (by decide) (by decide),
      .inl (Prog.eq_ok_of_isOk (by decide +kernel))⟩ (.nil _)
  exact ⟨_, hrun, wellFormed_of_run (by decide) smallEnv_reliable
    (sound_of_check emptyState_check.1).2
    (regular_of_check emptyState_check.1 emptyState_check.2) hrun⟩

/-- A file with a long name whose characters the driver cannot decode. -/
def strangeNameState : State := smallState [0, 0, endOfChain] fun _ =>
  let entry := buildShortEntry (0x41 :: List.replicate 10 0x20) attrArchive 0 0
  let lfn : DirectoryEntry := ⟨fun i => if i.val = 0 then 0x41 else if i.val = 11 then attrLfn
    else if i.val = 13 then shortNameChecksum entry.name else if i.val = 2 then 1 else 0⟩
  [lfn, entry]

/-- The call that moves `/D` into `/P`. -/
def moveDotless : Operation := .rename (joinPath [[0x44]]) (joinPath [[0x50], [0x44]])

/-- The call that gives the file `OO` a longer name. -/
def renameLoose : Operation := .rename (joinPath [[0x4F, 0x4F]]) (joinPath [longName])

/-- Removing that file leaves a long-name slot that describes no entry. Moving a directory whose
slot 1 is a file gives the file the first cluster of the new parent. And where a deleted long-name
slot is counted as part of the old name, the entry of the new name is deleted, and its first slots
stay behind. -/
theorem not_wellFormed_of_run :
    (WellFormed smallGeometry (strangeNameState.volume smallGeometry) ∧
      Runs (AdmissibleStep smallEnv) strangeNameState [.remove [slash, 0x41]]
        (afterCall (.remove [slash, 0x41]) strangeNameState) ∧
      ¬ WellFormed smallGeometry
        ((afterCall (.remove [slash, 0x41]) strangeNameState).volume smallGeometry)) ∧
    (WellFormed smallGeometry (dotlessState.volume smallGeometry) ∧
      Runs (AdmissibleStep smallEnv) dotlessState [moveDotless]
        (afterCall moveDotless dotlessState) ∧
      ¬ WellFormed smallGeometry ((afterCall moveDotless dotlessState).volume smallGeometry)) ∧
    (WellFormed smallGeometry (looseState.volume smallGeometry) ∧
      Runs (AdmissibleStep smallEnv) looseState [renameLoose] (afterCall renameLoose looseState) ∧
      ¬ WellFormed smallGeometry ((afterCall renameLoose looseState).volume smallGeometry)) := by
  have hstrange : checkVolume smallGeometry (strangeNameState.volume smallGeometry) [2] = true := by
    decide +kernel
  have hdotless : checkVolume smallGeometry (dotlessState.volume smallGeometry) [2, 3, 4] = true := by
    decide +kernel
  have hloose : checkVolume smallGeometry (looseState.volume smallGeometry) [2] = true := by
    decide +kernel
  refine ⟨⟨(sound_of_check hstrange).2,
    .cons ⟨canonicalPath_letter (by decide) (by decide) (by decide),
      .inl (Prog.eq_ok_of_isOk (by decide +kernel))⟩ (.nil _), fun hwf => ?_⟩,
    ⟨(sound_of_check hdotless).2,
      .cons ⟨⟨canonicalPath_join (by decide +kernel), canonicalPath_join (by decide +kernel)⟩,
        .inl (Prog.eq_ok_of_isOk (by decide +kernel))⟩ (.nil _), fun hwf => ?_⟩,
    (sound_of_check hloose).2,
    .cons ⟨⟨canonicalPath_join (by decide +kernel), canonicalPath_join (by decide +kernel)⟩,
      .inl (Prog.eq_ok_of_isOk (by decide +kernel))⟩ (.nil _), fun hwf => ?_⟩
  · have hslots := hwf.slots (d := 2) .root
    revert hslots
    decide +kernel
  · -- cluster 4 lies on the chains of the directory `P` and of the file `B`
    have hparent : LiveIn smallGeometry ((afterCall moveDotless dotlessState).volume smallGeometry)
        2 1 (letterEntry 0x50 attrDirectory 4 0) := ⟨.root, by decide +kernel⟩
    have hfour : Reachable smallGeometry
        ((afterCall moveDotless dotlessState).volume smallGeometry) 4 :=
      .step hparent.1 hparent.2 (by decide +kernel)
    have hthree : Reachable smallGeometry
        ((afterCall moveDotless dotlessState).volume smallGeometry) 3 :=
      .step (e := letterEntry 0x44 attrDirectory 3 0) (i := 0) hfour (by decide +kernel)
        (by decide +kernel)
    have hfile : LiveIn smallGeometry ((afterCall moveDotless dotlessState).volume smallGeometry)
        3 1 (letterEntry 0x42 attrArchive 4 512) := ⟨hthree, by decide +kernel⟩
    have howner := hwf.disjoint (c := 4) (.slot hparent (by decide +kernel))
      (.slot hfile (by decide +kernel))
    cases howner
  · have hslots := hwf.slots (d := 2) .root
    revert hslots
    decide +kernel

end FunnyOS.Fat32
