import FunnyOS.Boot.EfiErrors

/-!
# The framebuffer

`select_graphics_mode` takes the best of the modes that an output offers, and `gather_graphics_info`
stores the framebuffer of the output that it has located. What the latter returns is known to the
test of its caller exactly if the answers about the outputs are sound.
-/

namespace FunnyOS.Boot

open Prog

variable {sound C : Prop} {s s₁ s' : BootState} {status : EfiStatus}

/-! ## The graphics mode -/

variable {gop : GraphicsOutput} {current : GraphicsMode} {info : ModeInformation} {mode : Nat}
  {modes : List (Nat × ModeInformation)} {scan : ModeScan}

theorem mapFramebufferFormat_known : Known (mapFramebufferFormat info).1 ↔ info.Supported := by
  unfold mapFramebufferFormat ModeInformation.Supported
  split
  · next h => exact ⟨fun _ => .inl h, fun _ => known_success⟩
  · next h₀ =>
    split
    · next h => exact ⟨fun _ => .inr (.inl h), fun _ => known_success⟩
    · next h₁ =>
      split
      · next h =>
        obtain ⟨hformat, hred, hgreen, hblue⟩ := h
        exact ⟨fun _ => .inr (.inr ⟨hformat, hgreen, .inl ⟨hred, hblue⟩⟩), fun _ => known_success⟩
      · next h₂ =>
        split
        · next h =>
          obtain ⟨hformat, hred, hgreen, hblue⟩ := h
          exact ⟨fun _ => .inr (.inr ⟨hformat, hgreen, .inr ⟨hred, hblue⟩⟩), fun _ => known_success⟩
        · next h₃ => exact ⟨fun h => absurd h not_known_one, fun h => by tauto⟩

theorem mapFramebufferFormat_noError : efiError (mapFramebufferFormat info).1 = false := by
  unfold mapFramebufferFormat
  repeat' split
  all_goals rfl

/-- The first of the modes with the best area, if there is a mode at all. -/
def BestBy (better : Nat → Nat → Prop) (modes : List (Nat × ModeInformation)) :
    Option (Nat × Nat) → Prop
  | none => modes = []
  | some (mode, area) => ∃ info, (mode, info) ∈ modes ∧ info.area = area ∧
      ∀ other ∈ modes, better area other.2.area ∨ other.2.area = area ∧ mode ≤ other.1

theorem BestBy.snoc {better : Nat → Nat → Prop} [DecidableRel better]
    [IsStrictTotalOrder Nat better] {best : Option (Nat × Nat)} (h : BestBy better modes best)
    (hmode : ∀ other ∈ modes, other.1 ≤ mode) :
    BestBy better (modes ++ [(mode, info)])
      (if ∀ b ∈ best, better info.area b.2 then some (mode, info.area) else best) := by
  have hlast : (mode, info) ∈ modes ++ [(mode, info)] :=
    List.mem_append_right _ (List.mem_singleton_self _)
  cases best with
  | none =>
    rw [if_pos fun _ h => by cases h]
    obtain rfl : modes = [] := h
    exact ⟨info, hlast, rfl, fun other hother =>
      .inr (by rw [List.mem_singleton.mp hother]; exact ⟨rfl, le_rfl⟩)⟩
  | some found =>
    obtain ⟨mode₀, area₀⟩ := found
    obtain ⟨info₀, hmem, rfl, hall⟩ := h
    split
    · next hbetter =>
      have hbetter := hbetter _ rfl
      refine ⟨info, hlast, rfl, List.forall_mem_append.mpr ⟨fun other hother => .inl ?_, ?_⟩⟩
      · rcases hall other hother with hless | ⟨hsame, -⟩
        · exact trans_of better hbetter hless
        · rw [hsame]
          exact hbetter
      · exact fun other hother => .inr (by rw [List.mem_singleton.mp hother]; exact ⟨rfl, le_rfl⟩)
    · next hnot =>
      have hnot : ¬ better info.area info₀.area := fun h => hnot fun b hb => by
        obtain rfl := Option.some.inj hb
        exact h
      refine ⟨info₀, List.mem_append_left _ hmem, rfl, List.forall_mem_append.mpr ⟨hall, ?_⟩⟩
      intro other hother
      rw [List.mem_singleton.mp hother]
      rcases trichotomous_of better info₀.area info.area with hless | hsame | hless
      · exact .inl hless
      · exact .inr ⟨hsame.symm, hmode _ hmem⟩
      · exact absurd hless hnot

/-- What the loop of `select_graphics_mode` has found among the modes so far. -/
structure Scanned (modes : List (Nat × ModeInformation)) (scan : ModeScan) : Prop where
  preferred : BestBy (· > ·) (modes.filter (·.2.preferred)) scan.preferred
  fallback : BestBy (· < ·) (modes.filter fun mode => !mode.2.preferred) scan.fallback

theorem Scanned.snoc (h : Scanned modes scan) (hmode : ∀ other ∈ modes, other.1 ≤ mode) :
    Scanned (modes ++ [(mode, info)]) (considerMode scan mode info) := by
  have hfilter : ∀ {p : Nat × ModeInformation → Bool}, ∀ other ∈ modes.filter p, other.1 ≤ mode :=
    fun other hother => hmode other (List.mem_of_mem_filter hother)
  unfold considerMode
  cases hpreferred : info.preferred with
  | true =>
    have hbest := @BestBy.snoc info mode _ (· > ·) _ _ _ h.preferred hfilter
    rw [if_pos rfl]
    constructor
    · rw [List.filter_append, List.filter_singleton, hpreferred]
      split at hbest <;> split <;> first | exact hbest | contradiction
    · rw [List.filter_append, List.filter_singleton, hpreferred]
      split <;> simpa using h.fallback
  | false =>
    have hbest := @BestBy.snoc info mode _ (· < ·) _ _ _ h.fallback hfilter
    rw [if_neg (by decide)]
    constructor
    · rw [List.filter_append, List.filter_singleton, hpreferred]
      split <;> simpa using h.preferred
    · rw [List.filter_append, List.filter_singleton, hpreferred]
      split at hbest <;> split <;> first | exact hbest | contradiction

theorem Scanned.nil : Scanned [] ⟨none, none⟩ := ⟨rfl, rfl⟩

/-- The modes of which the best one is taken are the ones that are looked for. -/
theorem bestMode_of_bestBy {better : Nat → Nat → Prop} {area : Nat}
    {p : Nat × ModeInformation → Bool} (h : BestBy better (modes.filter p) (some (mode, area))) :
    ∃ info, (mode, info) ∈ modes ∧ p (mode, info) = true ∧ ∀ other ∈ modes, p other = true →
      better info.area other.2.area ∨ other.2.area = info.area ∧ mode ≤ other.1 := by
  obtain ⟨info, hmem, rfl, hall⟩ := h
  obtain ⟨hmem, hp⟩ := List.mem_filter.mp hmem
  exact ⟨info, hmem, hp, fun other hother hp => hall other (List.mem_filter.mpr ⟨hother, hp⟩)⟩

theorem Scanned.bestMode (h : Scanned modes scan) {area : Nat}
    (hbest : (scan.preferred <|> scan.fallback) = some (mode, area)) : BestMode modes mode := by
  unfold BestMode
  have hpreferred := h.preferred
  have hfallback := h.fallback
  cases hscan : scan.preferred with
  | some best =>
    rw [hscan] at hbest hpreferred
    obtain rfl : best = (mode, area) := Option.some.inj hbest
    obtain ⟨info, hmem, hp, hall⟩ := bestMode_of_bestBy hpreferred
    refine ⟨info, hmem, ?_⟩
    rw [if_pos ⟨_, hmem, hp⟩]
    exact ⟨hp, hall⟩
  | none =>
    rw [hscan] at hbest hpreferred
    have hnone : ∀ other ∈ modes, ¬ other.2.preferred = true := List.filter_eq_nil_iff.mp hpreferred
    rw [show scan.fallback = some (mode, area) from hbest] at hfallback
    obtain ⟨info, hmem, -, hall⟩ := bestMode_of_bestBy hfallback
    refine ⟨info, hmem, ?_⟩
    rw [if_neg fun ⟨other, hother, hp⟩ => hnone other hother hp]
    intro other hother
    refine hall other hother ?_
    rw [Bool.eq_false_iff.mpr (hnone other hother)]
    rfl

theorem Scanned.eq_nil (h : Scanned modes scan)
    (hbest : (scan.preferred <|> scan.fallback) = none) : modes = [] := by
  have hpreferred := h.preferred
  have hfallback := h.fallback
  cases hscan : scan.preferred with
  | some best =>
    rw [hscan] at hbest
    cases hbest
  | none =>
    rw [hscan] at hbest hpreferred
    rw [show scan.fallback = none from hbest] at hfallback
    refine List.eq_nil_iff_forall_not_mem.mpr fun other hother => ?_
    have hnot := List.filter_eq_nil_iff.mp hpreferred other hother
    refine List.filter_eq_nil_iff.mp hfallback other hother ?_
    rw [Bool.eq_false_iff.mpr hnot]
    rfl

theorem BestMode.unique {mode' : Nat} (h : BestMode modes mode) (h' : BestMode modes mode') :
    mode = mode' := by
  obtain ⟨info, hmem, hbest⟩ := h
  obtain ⟨info', hmem', hbest'⟩ := h'
  split at hbest
  · next hpreferred =>
    rw [if_pos hpreferred] at hbest'
    have hle := hbest.2 _ hmem' hbest'.1
    have hle' := hbest'.2 _ hmem hbest.1
    dsimp only at hle hle'
    omega
  · next hnone =>
    rw [if_neg hnone] at hbest'
    have hle := hbest _ hmem'
    have hle' := hbest' _ hmem
    dsimp only at hle hle'
    omega

theorem scanMode_maintains : Maintains (Incident sound) (scanMode gop scan mode) := by
  unfold scanMode
  split
  · exact Maintains.pure
  · refine Maintains.ite (fun _ => Maintains.pure) fun _ => ?_
    exact Maintains.bind testStatus_maintains fun _ => Maintains.ite (fun _ => Maintains.pure)
      fun _ => Maintains.pure

theorem scanMode_unless (hscan : Scanned modes scan) (hmode : ∀ other ∈ modes, other.1 ≤ mode)
    (hsound : sound → ∀ offered ∈ gop.offer mode, offered.2.Supported) :
    Unless (Incident sound) (scanMode gop scan mode) s
      (fun scan' s' => Quiet s s' ∧ Scanned (modes ++ (gop.offer mode).toList) scan' ∧
        ∀ offered ∈ gop.offer mode, offered.2.Supported) (fun _ _ => False) := by
  have hsame : gop.offer mode = none → Unless (Incident sound) (pure scan : Loader ModeScan) s
      (fun scan' s' => Quiet s s' ∧ Scanned (modes ++ (gop.offer mode).toList) scan' ∧
        ∀ offered ∈ gop.offer mode, offered.2.Supported) (fun _ _ => False) := fun hnone => by
    rw [hnone, Option.toList_none, List.append_nil]
    exact Unless.pure ⟨.refl, hscan, fun _ h => by cases h⟩
  unfold scanMode
  cases hquery : gop.queryMode mode with
  | mk status answer =>
    cases answer with
    | none =>
      refine hsame ?_
      rw [GraphicsOutput.offer, hquery]
      rfl
    | some info =>
      dsimp only
      refine Unless.ite (fun herror => hsame ?_) fun hok => ?_
      · rw [GraphicsOutput.offer, hquery]
        simp [herror]
      have hoffer : gop.offer mode = some (mode, info) := by
        rw [GraphicsOutput.offer, hquery]
        simp [hok]
      rw [hoffer] at hsound ⊢
      refine Unless.bind (testStatus_unless mapFramebufferFormat_known fun h => hsound h _ rfl)
        (fun _ => Maintains.ite (fun _ => Maintains.pure) fun _ => Maintains.pure)
        (fun _ _ h => h) ?_
      rintro failed s' ⟨rfl, hsupported, hquiet⟩
      rw [mapFramebufferFormat_noError, if_pos (by decide)]
      refine Unless.pure ⟨hquiet, hscan.snoc hmode, fun offered hoffered => ?_⟩
      obtain rfl := Option.some.inj hoffered
      exact hsupported

theorem scanModes_maintains {todo : List Nat} :
    Maintains (Incident sound) (todo.foldlM (scanMode gop) scan) := by
  induction todo generalizing scan with
  | nil => exact Maintains.pure
  | cons mode todo ih => exact Maintains.bind scanMode_maintains fun _ => ih

/-- The loop over the modes that are left. -/
theorem scanModes_unless {todo : List Nat} (hscan : Scanned modes scan)
    (horder : todo.Pairwise (· ≤ ·)) (hmodes : ∀ mode ∈ todo, ∀ other ∈ modes, other.1 ≤ mode)
    (hsound : sound → ∀ offered ∈ todo.filterMap gop.offer, offered.2.Supported) :
    Unless (Incident sound) (todo.foldlM (scanMode gop) scan) s
      (fun scan' s' => Quiet s s' ∧ Scanned (modes ++ todo.filterMap gop.offer) scan' ∧
        ∀ offered ∈ todo.filterMap gop.offer, offered.2.Supported) (fun _ _ => False) := by
  induction todo generalizing modes scan s with
  | nil =>
    rw [List.filterMap_nil, List.append_nil]
    exact Unless.pure ⟨.refl, hscan, fun _ h => absurd h List.not_mem_nil⟩
  | cons mode todo ih =>
    have hsplit : (mode :: todo).filterMap gop.offer
        = (gop.offer mode).toList ++ todo.filterMap gop.offer := by
      rw [List.filterMap_cons]
      cases gop.offer mode <;> rfl
    obtain ⟨hfirst, horder⟩ := List.pairwise_cons.mp horder
    rw [hsplit] at hsound ⊢
    refine Unless.bind (@scanMode_unless _ _ gop mode _ _ hscan (hmodes mode List.mem_cons_self)
      fun h offered hoffered => ?_) (fun _ => scanModes_maintains) (fun _ _ h => h) ?_
    · exact hsound h offered (List.mem_append_left _ (Option.mem_toList.mpr hoffered))
    rintro scan₁ s₁ ⟨hquiet, hscan₁, hsupported⟩
    refine Unless.mono (ih hscan₁ horder (fun later hlater other hother => ?_)
      fun h offered hoffered => hsound h offered (List.mem_append_right _ hoffered)) ?_
      fun _ _ h => h
    · rcases List.mem_append.mp hother with hother | hother
      · exact hmodes later (List.mem_cons_of_mem _ hlater) other hother
      · obtain ⟨info, -, rfl⟩ := Option.map_eq_some_iff.mp (Option.mem_toList.mp hother)
        exact hfirst later hlater
    · rintro scan₂ s₂ ⟨hquiet₂, hscan₂, hsupported₂⟩
      refine ⟨hquiet.trans hquiet₂, ?_, ?_⟩
      · rw [← List.append_assoc]
        exact hscan₂
      · refine List.forall_mem_append.mpr ⟨fun offered hoffered => ?_, hsupported₂⟩
        exact hsupported offered (Option.mem_toList.mp hoffered)

theorem selectGraphicsMode_maintains :
    Maintains (Incident sound) (selectGraphicsMode gop current) := by
  refine Maintains.bind scanModes_maintains fun scan => ?_
  split
  · exact Maintains.pure
  · exact Maintains.ite (fun _ => Maintains.pure) fun _ => Maintains.pure

/-- The output settles in its best mode. -/
theorem selectGraphicsMode_unless
    (hsound : sound → ∀ mode ∈ gop.offered current.maxMode, mode.2.Supported) :
    Unless (Incident sound) (selectGraphicsMode gop current) s
      (fun r s' => Quiet s s' ∧ (∀ mode ∈ gop.offered current.maxMode, mode.2.Supported) ∧
        (gop.offered current.maxMode = [] ∧ r.1 = 1 ∨
          ∃ mode, BestMode (gop.offered current.maxMode) mode ∧
            r = if current.mode = mode then (efiSuccess, some current) else gop.setMode mode))
      (fun _ _ => False) := by
  refine Unless.bind (scanModes_unless Scanned.nil List.pairwise_le_range
    (fun _ _ _ h => absurd h List.not_mem_nil) hsound) (fun scan => ?_) (fun _ _ h => h) ?_
  · split
    · exact Maintains.pure
    · exact Maintains.ite (fun _ => Maintains.pure) fun _ => Maintains.pure
  rintro scan s₁ ⟨hquiet, hscan, hsupported⟩
  rw [List.nil_append] at hscan
  cases hbest : scan.preferred <|> scan.fallback with
  | none => exact Unless.pure ⟨hquiet, hsupported, .inl ⟨hscan.eq_nil hbest, rfl⟩⟩
  | some best =>
    obtain ⟨mode, area⟩ := best
    refine Unless.ite (fun hcurrent => ?_) fun hother => ?_
    · refine Unless.pure ⟨hquiet, hsupported, .inr ⟨mode, hscan.bestMode hbest, ?_⟩⟩
      rw [if_pos hcurrent]
    · refine Unless.pure ⟨hquiet, hsupported, .inr ⟨mode, hscan.bestMode hbest, ?_⟩⟩
      rw [if_neg hother]

/-! ## The framebuffer -/

/-- What a routine that has only made tests returns: its status is known exactly under a condition
which sound answers meet. -/
def Judged (C : Prop) (s : BootState) (status : EfiStatus) (s' : BootState) : Prop :=
  Quiet s s' ∧ (Known status ↔ C)

theorem setInfo_bind_unless {α : Type} {f : LoaderInfo → LoaderInfo} {x : Unit → Loader α}
    {Q : α → BootState → Prop} {E : EfiStatus → BootState → Prop}
    (h : ∀ s', Quiet s s' → Unless (Incident sound) (x ()) s' Q E) :
    Unless (Incident sound) (setInfo f >>= x) s Q E :=
  Unless.modify_bind (h _ (.of_events rfl))

theorem storeFrame_maintains {settled : GraphicsMode} :
    Maintains (Incident sound) (storeFrame settled info) := by
  refine Maintains.bind setInfo_maintains fun _ => Maintains.ite (fun _ => Maintains.raise)
    fun _ => Maintains.bind setInfo_maintains fun _ => Maintains.bind testStatus_maintains
      fun _ => Maintains.ite (fun _ => Maintains.raise) fun _ => setInfo_maintains

theorem storeFrame_unless {settled : GraphicsMode} (hinfo : settled.info = some info)
    (hsound : sound → FrameSound (some settled)) :
    Unless (Incident sound) (storeFrame settled info) s
      (fun _ s' => Judged (FrameSound (some settled)) s efiSuccess s')
      (Judged (FrameSound (some settled)) s) := by
  have hframe : FrameSound (some settled) ↔
      unusableFrame settled info = false ∧ info.Supported := by
    constructor
    · rintro ⟨mode, info', hmode, hinfo', hframe⟩
      obtain rfl := Option.some.inj hmode
      obtain rfl := Option.some.inj (hinfo.symm.trans hinfo')
      exact hframe
    · exact fun h => ⟨settled, info, rfl, hinfo, h⟩
  rw [hframe] at hsound ⊢
  have hknown : Known (mapFramebufferFormat info).1 ↔ _ := mapFramebufferFormat_known
  have hnoError : efiError (mapFramebufferFormat info).1 = false := mapFramebufferFormat_noError
  unfold storeFrame
  generalize mapFramebufferFormat info = answer at hknown hnoError ⊢
  obtain ⟨status, format⟩ := answer
  refine setInfo_bind_unless fun s₁ h₁ => Unless.ite (fun hunusable => ?_) fun husable => ?_
  · refine Unless.raise ⟨h₁, fun h => absurd h not_known_one, fun h => ?_⟩
    exact absurd (hunusable.symm.trans h.1) (by decide)
  have husable := Bool.eq_false_iff.mpr husable
  refine setInfo_bind_unless fun s₂ h₂ => Unless.bind
    (testStatus_unless hknown fun h => (hsound h).2)
    (fun _ => Maintains.ite (fun _ => Maintains.raise) fun _ => setInfo_maintains)
    (fun _ _ h => h.elim) ?_
  rintro failed s₃ ⟨rfl, hsupported, h₃⟩
  refine Unless.ite (fun herror => absurd (herror.symm.trans hnoError) (by decide)) fun _ => ?_
  refine Unless.modify ⟨(h₁.trans h₂).trans (h₃.trans (.of_events rfl)), fun _ => ?_, fun _ =>
    known_success⟩
  exact ⟨husable, hsupported⟩

/-- The output that is located. -/
theorem locateGraphicsOutputProtocol_some {answers : GraphicsAnswers}
    (h : answers.outputs.findSome? usableOutput = some gop) :
    locateGraphicsOutputProtocol answers = (efiSuccess, some gop) := by
  unfold GraphicsAnswers.outputs at h
  unfold locateGraphicsOutputProtocol
  rw [List.findSome?_cons] at h
  cases hconsole : usableOutput answers.consoleOutput with
  | some gop' =>
    rw [hconsole] at h
    obtain rfl := Option.some.inj h
    rfl
  | none =>
    rw [hconsole] at h
    dsimp only at h ⊢
    cases herror : efiError answers.handleBuffer.1 with
    | true =>
      rw [herror] at h
      cases h
    | false =>
      rw [herror] at h
      cases hhandles : answers.handleBuffer.2 with
      | none =>
        rw [hhandles] at h
        cases h
      | some handles =>
        rw [hhandles] at h
        simp only [Bool.false_eq_true, if_false, Option.getD_some] at h ⊢
        rw [h]

/-- The status where no output is located. -/
theorem locateGraphicsOutputProtocol_none {answers : GraphicsAnswers}
    (h : answers.outputs.findSome? usableOutput = none) :
    locateGraphicsOutputProtocol answers =
      (if efiError answers.handleBuffer.1 then answers.handleBuffer.1 else 1, none) := by
  unfold GraphicsAnswers.outputs at h
  unfold locateGraphicsOutputProtocol
  rw [List.findSome?_eq_none_iff, List.forall_mem_cons, ← List.findSome?_eq_none_iff] at h
  obtain ⟨hconsole, hhandles⟩ := h
  rw [hconsole]
  dsimp only
  cases herror : efiError answers.handleBuffer.1 with
  | true => rfl
  | false =>
    rw [herror] at hhandles
    cases hbuffer : answers.handleBuffer.2 with
    | none => rfl
    | some handles =>
      rw [hbuffer] at hhandles
      simp only [Bool.false_eq_true, if_false, Option.getD_some] at hhandles ⊢
      rw [hhandles]

theorem GraphicsAnswers.sound_of_none {answers : GraphicsAnswers}
    (h : answers.outputs.findSome? usableOutput = none) :
    answers.Sound ↔ efiError answers.handleBuffer.1 = true := by
  unfold GraphicsAnswers.Sound
  rw [h]

theorem GraphicsAnswers.sound_of_some {answers : GraphicsAnswers}
    (h : answers.outputs.findSome? usableOutput = some gop) (hmode : gop.mode = some current) :
    answers.Sound ↔ gop.Sound current := by
  unfold GraphicsAnswers.Sound
  rw [h]
  simp only [hmode, Option.mem_def, Option.some.injEq, forall_eq']

theorem usableOutput_mode {answer : EfiStatus × Option GraphicsOutput}
    (h : usableOutput answer = some gop) :
    ∃ mode info, gop.mode = some mode ∧ mode.info = some info := by
  have husable := (Option.filter_eq_some_iff.mp h).2
  rw [Bool.and_eq_true] at husable
  obtain ⟨info, hinfo⟩ := Option.isSome_iff_exists.mp husable.2
  obtain ⟨mode, hmode, hinfo⟩ := Option.bind_eq_some_iff.mp hinfo
  exact ⟨mode, info, hmode, hinfo⟩

/-- An output that has settled in its best mode is sound if that has gone well. -/
theorem GraphicsOutput.sound_iff {r : EfiStatus × Option GraphicsMode}
    (hsupported : ∀ mode ∈ gop.offered current.maxMode, mode.2.Supported)
    (hbest : BestMode (gop.offered current.maxMode) mode)
    (hr : r = if current.mode = mode then (efiSuccess, some current) else gop.setMode mode) :
    gop.Sound current ↔ efiError r.1 = true ∨ r.1 = efiSuccess ∧ FrameSound r.2 := by
  have hsome : gop.offered current.maxMode ≠ [] := by
    obtain ⟨info, hmem, -⟩ := hbest
    exact List.ne_nil_of_mem hmem
  have hsettled : (if current.mode = mode then FrameSound (some current)
      else efiError (gop.setMode mode).1 = true ∨
        (gop.setMode mode).1 = efiSuccess ∧ FrameSound (gop.setMode mode).2) ↔
      efiError r.1 = true ∨ r.1 = efiSuccess ∧ FrameSound r.2 := by
    by_cases hcurrent : current.mode = mode
    · rw [if_pos hcurrent] at hr ⊢
      subst hr
      refine ⟨fun h => .inr ⟨rfl, h⟩, fun h => (h.resolve_left ?_).2⟩
      exact Bool.eq_false_iff.mp efiError_success
    · rw [if_neg hcurrent] at hr ⊢
      subst hr
      exact Iff.rfl
  constructor
  · exact fun h => hsettled.mp (h.2.2 mode hbest)
  · intro h
    refine ⟨hsupported, hsome, fun mode' hbest' => ?_⟩
    rw [hbest'.unique hbest]
    exact hsettled.mpr h

theorem takeFrame_maintains {settled : Option GraphicsMode} :
    Maintains (Incident sound) (takeFrame status settled) := by
  refine Maintains.bind testStatus_maintains fun _ => Maintains.ite (fun _ => Maintains.raise)
    fun _ => ?_
  split
  · exact Maintains.raise
  · exact storeFrame_maintains

theorem gatherGraphicsInfo_maintains {answers : GraphicsAnswers} :
    Maintains (Incident sound) (gatherGraphicsInfo answers) := by
  refine Maintains.bind testStatus_maintains fun _ => Maintains.ite (fun _ => Maintains.raise)
    fun _ => ?_
  split
  · exact Maintains.raise
  · refine Maintains.ite (fun _ => Maintains.raise) fun _ => ?_
    exact Maintains.bind selectGraphicsMode_maintains fun ⟨_, _⟩ => takeFrame_maintains

theorem takeFrame_unless {settled : Option GraphicsMode}
    (hC : Known status → (C ↔ efiError status = true ∨ status = efiSuccess ∧ FrameSound settled))
    (hknown : C → Known status) (hsound : sound → C) :
    Unless (Incident sound) (takeFrame status settled) s
      (fun _ s' => Judged C s efiSuccess s') (Judged C s) := by
  refine Unless.bind (testStatus_unless (C := Known status) Iff.rfl fun h => hknown (hsound h))
    (fun failed => ?_) (fun _ _ h => h.elim) ?_
  · refine Maintains.ite (fun _ => Maintains.raise) fun _ => ?_
    split
    · exact Maintains.raise
    · exact storeFrame_maintains
  rintro failed s₁ ⟨rfl, hstatus, hquiet⟩
  have hC := hC hstatus
  refine Unless.ite (fun herror => Unless.raise ⟨hquiet, ?_⟩) fun hok => ?_
  · exact iff_of_true hstatus (hC.mpr (.inl herror))
  have hzero := hstatus.success_iff.mp (Bool.eq_false_iff.mpr hok)
  have hframe : C ↔ FrameSound settled :=
    hC.trans ⟨fun h => (h.resolve_left hok).2, fun h => .inr ⟨hzero, h⟩⟩
  cases hsettled : settled.bind fun mode => mode.info.map fun info => (mode, info) with
  | none =>
    refine Unless.raise ⟨hquiet, iff_of_false not_known_one fun h => ?_⟩
    obtain ⟨mode, info, rfl, hinfo, -⟩ := hframe.mp h
    rw [Option.bind_some, hinfo] at hsettled
    cases hsettled
  | some found =>
    obtain ⟨mode, rfl, hfound⟩ := Option.bind_eq_some_iff.mp hsettled
    obtain ⟨info, hinfo, rfl⟩ := Option.map_eq_some_iff.mp hfound
    have hstore := storeFrame_unless (s := s₁) hinfo fun h => hframe.mp (hsound h)
    rw [← hframe] at hstore
    refine Unless.mono hstore ?_ ?_
    · exact fun _ _ h => ⟨hquiet.trans h.1, h.2⟩
    · exact fun _ _ h => ⟨hquiet.trans h.1, h.2⟩

/-- An output that has been located is taken. -/
theorem takeLocated_unless (hmode : gop.mode = some current) (hinfo : current.info = some info)
    (hsound : sound → gop.Sound current) :
    Unless (Incident sound) (takeOutput efiSuccess (some gop)) s
      (fun _ s' => Judged (gop.Sound current) s efiSuccess s') (Judged (gop.Sound current) s) := by
  refine Unless.bind (testStatus_unless (C := True) (iff_of_true known_success trivial)
    fun _ => trivial) (fun failed => ?_) (fun _ _ h => h.elim) ?_
  · refine Maintains.ite (fun _ => Maintains.raise) fun _ => ?_
    split
    · exact Maintains.raise
    · refine Maintains.ite (fun _ => Maintains.raise) fun _ => ?_
      exact Maintains.bind selectGraphicsMode_maintains fun ⟨_, _⟩ => takeFrame_maintains
  rintro failed s₁ ⟨rfl, -, hquiet⟩
  rw [if_neg (by decide), Option.bind_some, hmode, Option.map_some]
  refine Unless.ite (fun hnone => ?_) fun _ => ?_
  · rw [hinfo] at hnone
    cases hnone
  refine Unless.bind (selectGraphicsMode_unless fun h => (hsound h).1)
    (fun ⟨_, _⟩ => takeFrame_maintains) (fun _ _ h => h.elim) ?_
  rintro ⟨status, settled⟩ s₂ ⟨hquiet₂, hsupported, hend⟩
  have hquiet₂ := hquiet.trans hquiet₂
  have hiff : Known status → (gop.Sound current ↔
      efiError status = true ∨ status = efiSuccess ∧ FrameSound settled) := fun hstatus => by
    rcases hend with ⟨-, hone⟩ | ⟨mode, hbest, hr⟩
    · obtain rfl : status = 1 := hone
      exact absurd hstatus not_known_one
    · have hiff := gop.sound_iff hsupported hbest hr
      exact hiff
  have hknown : gop.Sound current → Known status := fun h => by
    rcases hend with ⟨hnone, -⟩ | ⟨mode, hbest, hr⟩
    · exact absurd hnone h.2.1
    · have hiff := gop.sound_iff hsupported hbest hr
      rcases hiff.mp h with herror | ⟨hzero, -⟩
      · exact .inr herror
      · exact .inl hzero
  refine Unless.mono (takeFrame_unless hiff hknown hsound) ?_ ?_
  · exact fun _ _ h => ⟨hquiet₂.trans h.1, h.2⟩
  · exact fun _ _ h => ⟨hquiet₂.trans h.1, h.2⟩

theorem gatherGraphicsInfo_unless {answers : GraphicsAnswers} (hsound : sound → answers.Sound) :
    Unless (Incident sound) (statusOf (gatherGraphicsInfo answers)) s (Judged answers.Sound s)
      (fun _ _ => False) := by
  apply statusOf_unless
  unfold gatherGraphicsInfo
  cases hfound : answers.outputs.findSome? usableOutput with
  | none =>
    have hanswers := GraphicsAnswers.sound_of_none hfound
    rw [locateGraphicsOutputProtocol_none hfound]
    refine Unless.bind (testStatus_unless (C := answers.Sound) ?_ hsound)
      (fun _ => Maintains.ite (fun _ => Maintains.raise) fun _ => Maintains.raise)
      (fun _ _ h => h.elim) ?_
    · rw [hanswers]
      cases herror : efiError answers.handleBuffer.1 with
      | true => exact iff_of_true (.inr herror) rfl
      | false => exact iff_of_false not_known_one (by decide)
    · rintro failed s₁ ⟨rfl, hmet, hquiet⟩
      have herror := hanswers.mp hmet
      rw [if_pos herror, if_pos herror]
      exact Unless.raise ⟨hquiet, iff_of_true (.inr herror) hmet⟩
  | some gop =>
    rw [locateGraphicsOutputProtocol_some hfound]
    obtain ⟨answer, -, husable⟩ := List.exists_of_findSome?_eq_some hfound
    obtain ⟨mode, info, hmode, hinfo⟩ := usableOutput_mode husable
    rw [GraphicsAnswers.sound_of_some hfound hmode] at hsound ⊢
    exact takeLocated_unless hmode hinfo hsound

end FunnyOS.Boot
