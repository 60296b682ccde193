import FunnyOS.Fat32.DirectorySpec
import FunnyOS.Fat32.LongNames

/-!
# Editing tidy directories

A block of slots that starts where the long-name state is dead can be replaced by another
one that leaves it dead: the entries before and behind it, and their names, stay the same
(`Splice.replace`). Runs of free slots are such blocks (`splice_of_free`), and so are an
entry and the long-name slots that `mark_entry_deleted` deletes with it (`splice_of_item`).
-/

namespace FunnyOS.Fat32

/-- A block of slots whose checks and entries do not depend on what stands before it, and
that hides nothing behind it. -/
structure ClosedBlock (ok : LfnState → DirectoryEntry → Prop) (block : List DirectoryEntry) :
    Prop where
  tidy : Checked lfnStep ok .initial block
  dead : (block.foldl lfnStep .initial).Dead

/-- The directory `pre ++ old ++ post`, where `old` may be replaced. -/
structure Splice (ok : LfnState → DirectoryEntry → Prop) (pre old post : List DirectoryEntry) :
    Prop where
  before : ClosedBlock ok pre
  behind : TidyFrom ok .initial post
  items : itemsOf (pre ++ old ++ post) = dirItems pre 0 .initial
    ++ dirItems old pre.length .initial ++ dirItems post (pre.length + old.length) .initial

section

variable {pre old new post es : List DirectoryEntry} {e : DirectoryEntry} {start count i : Nat}
  {ok : LfnState → DirectoryEntry → Prop} [SlotRules ok]

theorem ClosedBlock.append (h : ClosedBlock ok pre) (h' : ClosedBlock ok new) :
    ClosedBlock ok (pre ++ new) := by
  obtain ⟨h₁, h₂⟩ := checked_alike (LfnState.dead_initial.alike h.dead) h'.tidy
  refine ⟨checked_append.mpr ⟨h.tidy, h₁⟩, ?_⟩
  rw [List.foldl_append]
  exact h₂.dead h'.dead

theorem dirItems_closed {index : Nat} (h : ClosedBlock ok pre) :
    dirItems (pre ++ post) index .initial
      = dirItems pre index .initial ++ dirItems post (index + pre.length) .initial := by
  rw [dirItems_append (checked_name0_ne h.tidy)]
  congr 1
  exact dirItems_alike (h.dead.alike LfnState.dead_initial)

theorem tidyFrom_closed (h : ClosedBlock ok pre) (h' : TidyFrom ok .initial post) :
    TidyFrom ok .initial (pre ++ post) :=
  tidyFrom_append h.tidy (h'.alike (LfnState.dead_initial.alike h.dead))

/-- A closed block in place of another block. -/
theorem Splice.replace (h : Splice ok pre old post) (hnew : ClosedBlock ok new) :
    Tidy ok (pre ++ new ++ post) ∧
      itemsOf (pre ++ new ++ post) = dirItems pre 0 .initial
        ++ dirItems new pre.length .initial
        ++ dirItems post (pre.length + new.length) .initial := by
  have hclosed := h.before.append hnew
  refine ⟨tidyFrom_closed hclosed h.behind, ?_⟩
  unfold itemsOf
  rw [dirItems_closed hclosed, dirItems_closed h.before, Nat.zero_add, List.length_append,
    Nat.zero_add]

/-- Slots that are free hold no entry. -/
theorem dirItems_free {index : Nat} {st : LfnState} (h : ∀ x ∈ old, x.IsFree) :
    dirItems old index st = [] := by
  induction old generalizing index st with
  | nil => rfl
  | cons x old ih =>
    rcases DirectoryEntry.kind_of_isFree (h x (by simp)) with hk | hk
    · simp [dirItems, hk]
    · simp only [dirItems, hk]
      exact ih (fun y hy => h y (by simp [hy]))

/-- Deleted slots form a closed block. -/
theorem closedBlock_deleted (h : ∀ x ∈ new, x.kind = .deleted) : ClosedBlock ok new := by
  have key : ∀ st : LfnState, st.Dead →
      Checked lfnStep ok st new ∧ (new.foldl lfnStep st).Dead := by
    induction new with
    | nil => exact fun st hst => ⟨trivial, hst⟩
    | cons x new ih =>
      intro st hst
      have hk := h x (by simp)
      obtain ⟨h₁, h₂⟩ := ih (fun y hy => h y (by simp [hy])) (lfnStep st x)
        (lfnStep_dead (by simp [hk]))
      exact ⟨⟨SlotRules.deleted hk hst, h₁⟩, h₂⟩
  obtain ⟨h₁, h₂⟩ := key .initial LfnState.dead_initial
  exact ⟨h₁, h₂⟩

/-- Behind free slots the scan goes on as from the start. -/
theorem tidyFrom_behind_free (hfree : ∀ x ∈ old, x.IsFree) (h : TidyFrom ok .initial (old ++ post)) :
    TidyFrom ok .initial post ∧ dirItems (old ++ post) i .initial
      = dirItems post (i + old.length) .initial := by
  induction old generalizing i with
  | nil => exact ⟨h, rfl⟩
  | cons x old ih =>
    have hx := hfree x (by simp)
    rcases tidyFrom_cons h with ⟨h0, -, hz⟩ | ⟨hok, hrest⟩
    · have hzero : ∀ y ∈ post, y.name0 = 0 := fun y hy => hz y (by simp [hy])
      refine ⟨tidyFrom_zeros LfnState.dead_initial hzero, ?_⟩
      rw [dirItems_zeros hzero, dirItems_zeros]
      intro y hy
      rcases List.mem_cons.mp hy with rfl | hy
      · exact h0
      · exact hz y hy
    · have hk : x.kind = .deleted := by
        rcases DirectoryEntry.kind_of_isFree hx with hk | hk
        · have htidy : SlotTidy .initial x := SlotRules.tidy hok
          simp [SlotTidy, hk] at htidy
        · exact hk
      have hdead : (lfnStep .initial x).Dead := lfnStep_dead (by simp [hk])
      have hal := hdead.alike LfnState.dead_initial
      obtain ⟨h₁, h₂⟩ := ih (i := i + 1) (fun y hy => hfree y (by simp [hy])) (hrest.alike hal)
      refine ⟨h₁, ?_⟩
      simp only [List.cons_append, dirItems, hk, List.length_cons]
      rw [dirItems_alike hal, h₂]
      congr 1
      omega

/-- What `find_free_entry_in_cluster_dir` finds: free slots behind a slot that is not free. -/
structure FreeRunAt (es : List DirectoryEntry) (start count : Nat) : Prop where
  fits : start + count ≤ es.length
  free : ∀ x ∈ (es.drop start).take count, x.IsFree
  first : ∀ x, (es.take start).getLast? = some x → ¬ x.IsFree

/-- A run of free slots may be replaced. -/
theorem splice_of_free (ht : Tidy ok es) (h : FreeRunAt es start count) (hpos : 0 < count) :
    Splice ok (es.take start) ((es.drop start).take count) (es.drop (start + count)) := by
  have hsplit : es.take start ++ ((es.drop start).take count ++ es.drop (start + count)) = es := by
    rw [← List.drop_drop, List.take_append_drop, List.take_append_drop]
  have hfits := h.fits
  obtain ⟨x, rest, hx⟩ : ∃ x rest, (es.drop start).take count = x :: rest := by
    refine List.exists_cons_of_ne_nil ?_
    intro hnil
    have := congrArg List.length hnil
    simp only [List.length_take, List.length_drop, List.length_nil] at this
    omega
  have hcut := ht
  rw [Tidy, ← hsplit] at hcut
  rcases hcut.cut with ⟨hbefore, hbehind⟩ | ⟨-, y, hy, hy0⟩
  · have hdead : ((es.take start).foldl lfnStep .initial).Dead := by
      rw [hx, List.cons_append] at hbehind
      exact hbehind.dead_of_free (h.free x (by simp [hx]))
    have hclosed : ClosedBlock ok (es.take start) := ⟨hbefore, hdead⟩
    obtain ⟨h₁, h₂⟩ := tidyFrom_behind_free
      (i := (es.take start).length) h.free (hbehind.alike (hdead.alike LfnState.dead_initial))
    refine ⟨hclosed, h₁, ?_⟩
    rw [List.append_assoc, itemsOf, dirItems_closed hclosed, Nat.zero_add, h₂,
      dirItems_free h.free, List.append_nil]
  · exact absurd (.inl hy0) (h.first y hy)

/-- Closed blocks side by side. -/
theorem splice_of_closed (hpre : ClosedBlock ok pre) (hold : ClosedBlock ok old)
    (hpost : TidyFrom ok .initial post) : Splice ok pre old post where
  before := hpre
  behind := hpost
  items := by
    rw [itemsOf, dirItems_closed (hpre.append hold), dirItems_closed hpre, Nat.zero_add,
      List.length_append, Nat.zero_add]

/-! ## Searching for free slots -/

/-- The run that is being collected at the end of the slots `done`. -/
def OpenRun (done : List DirectoryEntry) (run : FreeRun) : Prop :=
  (run.count = 0 ∧ ∀ x, done.getLast? = some x → ¬ x.IsFree) ∨
  (0 < run.count ∧ run.start + run.count = done.length ∧ FreeRunAt done run.start run.count)

theorem FreeRunAt.append (h : FreeRunAt es start count) : FreeRunAt (es ++ post) start count where
  fits := by have := h.fits; rw [List.length_append]; omega
  free := by
    have hfits := h.fits
    rw [List.drop_append_of_le_length (by omega),
      List.take_append_of_le_length (by rw [List.length_drop]; omega)]
    exact h.free
  first := by
    have hfits := h.fits
    rw [List.take_append_of_le_length (by omega)]
    exact h.first

/-- A run that reaches the end grows by the free slots that follow. -/
theorem FreeRunAt.extend {more : Nat} (h : FreeRunAt es start count)
    (hend : start + count = es.length) (hmore : more ≤ post.length)
    (hfree : ∀ x ∈ post, x.IsFree) : FreeRunAt (es ++ post) start (count + more) where
  fits := by rw [List.length_append]; omega
  free := by
    have hlen : (es.drop start).length = count := by rw [List.length_drop]; omega
    have htake : (es.drop start).take count = es.drop start :=
      List.take_of_length_le (by omega)
    rw [List.drop_append_of_le_length (by omega), ← hlen, List.take_length_add_append]
    intro x hx
    rcases List.mem_append.mp hx with hx | hx
    · exact h.free x (by rw [htake]; exact hx)
    · exact hfree x (List.mem_of_mem_take hx)
  first := h.append.first

theorem freeRunAt_end (h : ∀ x, es.getLast? = some x → ¬ x.IsFree) :
    FreeRunAt es es.length 0 where
  fits := Nat.le_refl _
  free := by simp
  first := by rw [List.take_length]; exact h

/-- A free slot opens a run or makes it longer. -/
theorem OpenRun.free {done : List DirectoryEntry} {run : FreeRun} (h : OpenRun done run)
    (hfree : e.IsFree) :
    OpenRun (done ++ [e]) ⟨if run.count = 0 then done.length else run.start, run.count + 1⟩ := by
  have hall : ∀ x ∈ [e], x.IsFree := by
    intro x hx
    rw [List.mem_singleton.mp hx]
    exact hfree
  refine .inr ⟨Nat.succ_pos _, ?_, ?_⟩
  · rw [List.length_append, List.length_singleton]
    rcases h with ⟨h0, -⟩ | ⟨hpos, hend, -⟩
    · simp only [if_pos h0]; omega
    · simp only [if_neg (Nat.ne_of_gt hpos)]; omega
  · rcases h with ⟨h0, hlast⟩ | ⟨hpos, hend, hrun⟩
    · simp only [h0]
      exact (freeRunAt_end hlast).extend (by simp) (by simp) hall
    · simp only [if_neg (Nat.ne_of_gt hpos)]
      exact hrun.extend hend (by simp) hall

/-- A slot that is not free ends it. -/
theorem OpenRun.used {done : List DirectoryEntry} {run : FreeRun} (hfree : ¬ e.IsFree) :
    OpenRun (done ++ [e]) ⟨run.start, 0⟩ := by
  refine .inl ⟨rfl, ?_⟩
  intro x hx
  simp only [List.getLast?_append, List.getLast?_singleton, Option.some_or,
    Option.some.injEq] at hx
  subst hx
  exact hfree

variable (es) in
theorem scanForFree_spec (needed : Nat) {done : List DirectoryEntry} {run : FreeRun}
    (h : OpenRun done run) :
    match scanForFree needed es done.length run with
    | .inr start => FreeRunAt (done ++ es) start needed
    | .inl run' => OpenRun (done ++ es) run' := by
  induction es generalizing done run with
  | nil => simpa [scanForFree] using h
  | cons e es ih =>
    simp only [scanForFree]
    have hassoc : done ++ e :: es = (done ++ [e]) ++ es := by simp
    have hlen : done.length + 1 = (done ++ [e]).length := by simp
    by_cases hfree : e.name0 = 0 ∨ e.name0 = deletedMark
    · rw [if_pos hfree]
      have hopen := h.free hfree
      by_cases hdone : run.count + 1 ≥ needed
      · simp only [if_pos hdone]
        rw [hassoc]
        rcases hopen with ⟨h0, -⟩ | ⟨-, -, hrun⟩
        · exact absurd h0 (Nat.succ_ne_zero _)
        · have hle : needed ≤ run.count + 1 := hdone
          refine FreeRunAt.append ⟨?_, ?_, hrun.first⟩
          · have := hrun.fits
            simp only at this
            omega
          · intro x hx
            exact hrun.free x (List.take_subset_take_left _ hle hx)
      · simp only [if_neg hdone]
        rw [hassoc, hlen]
        exact ih hopen
    · rw [if_neg hfree, hassoc, hlen]
      exact ih (OpenRun.used hfree)

/-- A search that succeeds inside the directory. -/
theorem freeRunAt_of_inside {needed : Nat} (h : FreeSearch es needed (.inr start)) :
    FreeRunAt es start needed := by
  have hspec := scanForFree_spec es needed (show OpenRun [] ⟨0, 0⟩ from .inl ⟨rfl, by simp⟩)
  simp only [FreeSearch] at h
  simp only [List.length_nil, h, List.nil_append] at hspec
  exact hspec

/-- A search that needs the free slots of another cluster. -/
theorem freeRunAt_of_extended {needed : Nat} (h : FreeSearch es needed (.inl start))
    (hpost : ∀ x ∈ post, x.IsFree) (hlen : needed ≤ post.length) :
    FreeRunAt (es ++ post) start needed := by
  have hspec := scanForFree_spec es needed (show OpenRun [] ⟨0, 0⟩ from .inl ⟨rfl, by simp⟩)
  obtain ⟨run, hscan, rfl⟩ := h
  simp only [List.length_nil, hscan, List.nil_append] at hspec
  have hshrink : ∀ {start count : Nat}, needed ≤ count →
      FreeRunAt (es ++ post) start count → FreeRunAt (es ++ post) start needed := by
    intro start count hle hr
    exact ⟨by have := hr.fits; omega,
      fun x hx => hr.free x (List.take_subset_take_left _ hle hx), hr.first⟩
  rcases hspec with ⟨h0, hlast⟩ | ⟨hpos, hend, hrun⟩
  · rw [if_neg (by simpa using h0)]
    exact hshrink (by omega)
      ((freeRunAt_end hlast).extend (by simp) (Nat.le_refl _) hpost)
  · rw [if_pos (by omega)]
    exact hshrink (by omega)
      (hrun.extend hend (Nat.le_refl _) hpost)

/-! ## Entries and their long-name slots -/

/-- An item with the slots before and behind it. -/
theorem item_split {it : Item} {st : LfnState} {index : Nat} (ht : TidyFrom ok st es)
    (hit : it ∈ dirItems es index st) :
    ∃ p q, es = p ++ it.entry :: q ∧ it.index = index + p.length ∧
      Checked lfnStep ok st p ∧ it.entry.kind = .live ∧
      ok (p.foldl lfnStep st) it.entry ∧
      it.name = decodeDirectoryEntryName it.entry (p.foldl lfnStep st) ∧
      it.attached = (p.foldl lfnStep st).attached it.entry ∧
      TidyFrom ok .initial q := by
  induction es generalizing index st with
  | nil => simp [dirItems] at hit
  | cons e es ih =>
    rcases tidyFrom_cons ht with ⟨h0, -, -⟩ | ⟨hok, hrest⟩
    · simp [dirItems, DirectoryEntry.kind_endMark h0] at hit
    · have hmore : it ∈ dirItems es (index + 1) (lfnStep st e) →
          ∃ p q, e :: es = p ++ it.entry :: q ∧ it.index = index + p.length ∧
            Checked lfnStep ok st p ∧ it.entry.kind = .live ∧
            ok (p.foldl lfnStep st) it.entry ∧
            it.name = decodeDirectoryEntryName it.entry (p.foldl lfnStep st) ∧
            it.attached = (p.foldl lfnStep st).attached it.entry ∧
            TidyFrom ok .initial q := by
        intro hit
        obtain ⟨p, q, rfl, hidx, hp, hrest⟩ := ih hrest hit
        exact ⟨e :: p, q, rfl, by simp only [List.length_cons]; omega, ⟨hok, hp⟩, hrest⟩
      have htidy : SlotTidy st e := SlotRules.tidy hok
      cases hk : e.kind <;> simp only [dirItems, hk] at hit
      · simp [SlotTidy, hk] at htidy
      · exact hmore hit
      · exact hmore hit
      · exact hmore hit
      · exact hmore hit
      · rcases List.mem_cons.mp hit with rfl | hit
        · exact ⟨[], es, rfl, rfl, trivial, hk, hok, rfl, rfl,
            hrest.alike ((lfnStep_dead (by simp [hk])).alike LfnState.dead_initial)⟩
        · exact hmore hit

/-- The slots with the long-name attribute in front of a slot. -/
theorem lfnRun_split (p q : List DirectoryEntry) :
    ∃ p₀ r, p = p₀ ++ r ∧ r.length = lfnRun (p ++ q) p.length ∧
      (∀ x ∈ r, x.attributes = attrLfn) ∧
      ∀ x, p₀.getLast? = some x → x.attributes ≠ attrLfn := by
  induction p using List.reverseRecOn generalizing q with
  | nil => exact ⟨[], [], rfl, rfl, by simp, by simp⟩
  | append_singleton p x ih =>
    have hget : (p ++ [x] ++ q).getD p.length .zero = x := by simp
    rw [List.length_append, List.length_singleton]
    simp only [lfnRun, hget]
    by_cases hx : x.attributes = attrLfn
    · rw [if_pos hx]
      obtain ⟨p₀, r, rfl, hlen, hr, hlast⟩ := ih ([x] ++ q)
      refine ⟨p₀, r ++ [x], by simp, ?_, ?_, hlast⟩
      · rw [List.length_append, hlen, List.append_assoc _ [x] q]; rfl
      · intro y hy
        rcases List.mem_append.mp hy with hy | hy
        · exact hr y hy
        · rw [List.mem_singleton.mp hy]; exact hx
    · rw [if_neg hx]
      exact ⟨p ++ [x], [], by simp, rfl, by simp, fun y hy => by
        simp only [List.getLast?_append, List.getLast?_singleton, Option.some_or,
          Option.some.injEq] at hy
        rw [← hy]; exact hx⟩

/-- The number of slots that `fat32_remove` and `fat32_rename` count in front of an entry. -/
def Item.lfnCount (es : List DirectoryEntry) (it : Item) : Nat :=
  if it.attached then lfnRun es it.index else 0

/-- An entry with the slots counted in front of it: `es = p ++ (r ++ [entry]) ++ q`. -/
structure ItemBlock (ok : LfnState → DirectoryEntry → Prop) (es : List DirectoryEntry)
    (it : Item) (p r q : List DirectoryEntry) : Prop where
  eq : es = p ++ (r ++ [it.entry]) ++ q
  count : r.length = it.lfnCount es
  index : it.index = p.length + r.length
  attributes : ∀ x ∈ r, x.attributes = attrLfn
  live : it.entry.kind = .live
  before : ClosedBlock ok p
  behind : TidyFrom ok .initial q
  block : ClosedBlock ok (r ++ [it.entry])
  items : dirItems (r ++ [it.entry]) p.length .initial = [it]

theorem kind_of_lfnAttributes (h : e.attributes = attrLfn) (h0 : e.name0 ≠ 0) :
    e.kind = .deleted ∨ e.kind = .longName := by
  unfold DirectoryEntry.kind
  rw [if_neg h0]
  by_cases h₁ : e.name0 = deletedMark
  · exact .inl (if_pos h₁)
  · rw [if_neg h₁, if_pos h]; exact .inr rfl

/-- Slots that carry the long-name attribute hold no entry. -/
theorem dirItems_lfnAttributes {index : Nat} {st : LfnState}
    (h : ∀ x ∈ old, x.attributes = attrLfn) : dirItems old index st = [] := by
  induction old generalizing index st with
  | nil => rfl
  | cons x old ih =>
    have hx := h x (by simp)
    by_cases h0 : x.name0 = 0
    · simp [dirItems, DirectoryEntry.kind_endMark h0]
    · have ih' := fun st => @ih (index + 1) st (fun y hy => h y (by simp [hy]))
      rcases kind_of_lfnAttributes hx h0 with hk | hk
      · simp only [dirItems, hk]; exact ih' _
      · simp only [dirItems, hk]; exact ih' _

theorem itemBlock_of_mem {it : Item} (ht : Tidy ok es) (hit : it ∈ itemsOf es) :
    ∃ p r q, ItemBlock ok es it p r q := by
  obtain ⟨p, q, rfl, hidx, hp, hlive, hok, hname, hatt, hq⟩ := item_split ht hit
  rw [Nat.zero_add] at hidx
  -- where the counted slots start, the long-name state is dead
  obtain ⟨p₀, r, rfl, hcount, hr, hdead⟩ : ∃ p₀ r, p = p₀ ++ r ∧
      r.length = it.lfnCount (p ++ it.entry :: q) ∧ (∀ x ∈ r, x.attributes = attrLfn) ∧
      (p₀.foldl lfnStep .initial).Dead := by
    by_cases hat : it.attached = true
    · obtain ⟨p₀, r, rfl, hcount, hr, hlast⟩ := lfnRun_split p (it.entry :: q)
      refine ⟨p₀, r, rfl, ?_, hr, ?_⟩
      · rw [Item.lfnCount, if_pos hat, hidx]; exact hcount
      · rcases List.eq_nil_or_concat p₀ with rfl | ⟨p₁, x, rfl⟩
        · exact LfnState.dead_initial
        · rw [List.concat_eq_append, List.foldl_append]
          refine lfnStep_dead ?_
          have hx := hlast x (by simp)
          intro hk
          unfold DirectoryEntry.kind at hk
          split_ifs at hk
    · refine ⟨p, [], by simp, by simp [Item.lfnCount, hat], by simp, ?_⟩
      have htidy : SlotTidy _ it.entry := SlotRules.tidy hok
      simp only [SlotTidy, hlive] at htidy
      rcases htidy with hd | ha
      · exact hd
      · rw [← hatt] at ha
        exact absurd ha hat
  obtain ⟨hp₀, hr₀⟩ := checked_append.mp hp
  have hbefore : ClosedBlock ok p₀ := ⟨hp₀, hdead⟩
  have hal := hdead.alike LfnState.dead_initial
  obtain ⟨hr₁, hst⟩ := checked_alike hal hr₀
  rw [List.foldl_append] at hok hname hatt
  refine ⟨p₀, r, q, by simp, hcount, by simpa using hidx, hr, hlive, hbefore, hq, ⟨?_, ?_⟩, ?_⟩
  · exact checked_append.mpr ⟨hr₁, SlotRules.alike hok hst, trivial⟩
  · rw [List.foldl_append]
    exact lfnStep_dead (by simp [hlive])
  · rw [dirItems_append (checked_name0_ne hr₁), dirItems_lfnAttributes hr, List.nil_append]
    simp only [dirItems, hlive]
    rw [← hst.decode_eq, ← hst.attached_eq, ← hname, ← hatt]
    have : p₀.length + r.length = it.index := by rw [hidx, List.length_append]
    rw [this]

theorem ItemBlock.splice {it : Item} {p r q : List DirectoryEntry} (h : ItemBlock ok es it p r q) :
    Splice ok p (r ++ [it.entry]) q := splice_of_closed h.before h.block h.behind

/-- The items before and behind the entry of a block. -/
theorem ItemBlock.items_eq {it : Item} {p r q : List DirectoryEntry}
    (h : ItemBlock ok es it p r q) : itemsOf es = dirItems p 0 .initial
      ++ it :: dirItems q (p.length + (r.length + 1)) .initial := by
  have hitems := h.splice.items
  rw [← h.eq, h.items] at hitems
  rw [hitems, List.length_append, List.length_singleton]
  simp

/-! ## What the operations do to a directory -/

/-- `es'` is `es` with an entry taken out of the list of entries. -/
def ItemRemoved (es es' : List DirectoryEntry) (it : Item) : Prop :=
  ∃ a b, itemsOf es = a ++ it :: b ∧ itemsOf es' = a ++ b

/-- `es'` is `es` with an entry added to the list of entries. -/
def ItemAdded (es es' : List DirectoryEntry) (it : Item) : Prop :=
  ∃ a b, itemsOf es = a ++ b ∧ itemsOf es' = a ++ it :: b

/-- `es'` is `es` with one entry replaced by another. -/
def ItemReplaced (es es' : List DirectoryEntry) (it it' : Item) : Prop :=
  ∃ a b, itemsOf es = a ++ it :: b ∧ itemsOf es' = a ++ it' :: b

/-- Replacing the block of an entry by a closed block that holds one other entry. -/
theorem ItemBlock.replace {it it' : Item} {p r q : List DirectoryEntry}
    (h : ItemBlock ok es it p r q) (hnew : ClosedBlock ok new)
    (hlen : new.length = r.length + 1) (hitems : dirItems new p.length .initial = [it']) :
    Tidy ok (p ++ new ++ q) ∧ ItemReplaced es (p ++ new ++ q) it it' := by
  obtain ⟨ht, hi⟩ := h.splice.replace hnew
  refine ⟨ht, _, _, h.items_eq, ?_⟩
  rw [hi, hitems, hlen]
  simp

omit [SlotRules ok] in
/-- Deleting an entry with the slots counted in front of it. -/
theorem ItemBlock.deleteSpan_eq {it : Item} {p r q : List DirectoryEntry}
    (h : ItemBlock ok es it p r q) :
    deleteSpan es (it.index - it.lfnCount es) (it.lfnCount es + 1)
      = p ++ (r ++ [it.entry]).map .setDeleted ++ q := by
  have hstart : it.index - it.lfnCount es = p.length := by
    rw [h.index, ← h.count]; omega
  have hlen : (r ++ [it.entry]).length = it.lfnCount es + 1 := by
    rw [List.length_append, List.length_singleton, h.count]
  have hold : (es.drop p.length).take (r ++ [it.entry]).length = r ++ [it.entry] := by
    rw [h.eq, List.append_assoc, List.drop_left, List.take_left]
  have hset := setSpan_append p (r ++ [it.entry]) q
    (List.length_map DirectoryEntry.setDeleted)
  rw [← h.eq] at hset
  rw [deleteSpan, hstart, ← hlen, hold, hset]

/-- `mark_entry_deleted` on an entry with the slots counted in front of it. -/
theorem itemRemoved_deleteSpan {it : Item} (ht : Tidy ok es) (hit : it ∈ itemsOf es) :
    Tidy ok (deleteSpan es (it.index - it.lfnCount es) (it.lfnCount es + 1)) ∧
      ItemRemoved es (deleteSpan es (it.index - it.lfnCount es) (it.lfnCount es + 1)) it := by
  obtain ⟨p, r, q, hb⟩ := itemBlock_of_mem ht hit
  have hkind : ∀ x ∈ (r ++ [it.entry]).map DirectoryEntry.setDeleted, x.kind = .deleted := by
    intro x hx
    obtain ⟨y, -, rfl⟩ := List.mem_map.mp hx
    exact DirectoryEntry.kind_setDeleted
  obtain ⟨htidy, hitems⟩ := hb.splice.replace (closedBlock_deleted hkind)
  rw [hb.deleteSpan_eq]
  have hnone : dirItems ((r ++ [it.entry]).map .setDeleted) p.length .initial = [] :=
    dirItems_free fun x hx => .inr (DirectoryEntry.kind_eq_deleted.mp (hkind x hx))
  refine ⟨htidy, _, _, hb.items_eq, ?_⟩
  rw [hitems, hnone, List.append_nil, List.length_map, List.length_append,
    List.length_singleton]

/-- Writing a closed block with one entry over free slots. -/
theorem itemAdded_setSpan {it : Item} (ht : Tidy ok es) (hfree : FreeRunAt es start new.length)
    (hnew : ClosedBlock ok new) (hitems : dirItems new start .initial = [it]) :
    Tidy ok (setSpan es start new) ∧ ItemAdded es (setSpan es start new) it := by
  have hpos : 0 < new.length := by
    refine List.length_pos_of_ne_nil ?_
    rintro rfl
    simp [dirItems] at hitems
  have hs := splice_of_free ht hfree hpos
  have hfits := hfree.fits
  have hsplit : es.take start ++ (es.drop start).take new.length
      ++ es.drop (start + new.length) = es := by
    rw [List.append_assoc, ← List.drop_drop, List.take_append_drop, List.take_append_drop]
  have hstart : (es.take start).length = start := by rw [List.length_take]; omega
  have hlen : ((es.drop start).take new.length).length = new.length := by
    rw [List.length_take, List.length_drop]; omega
  have hold := hs.items
  rw [hsplit, dirItems_free hfree.free, List.append_nil, hlen] at hold
  obtain ⟨htidy, hi⟩ := hs.replace hnew
  refine ⟨htidy, _, _, hold, ?_⟩
  rw [setSpan, hi, hstart, hitems]
  simp

/-- A slot that has the same name and attributes, but another size or first cluster. -/
structure SameName (e e' : DirectoryEntry) : Prop where
  name : e'.name = e.name
  attributes : e'.attributes = e.attributes

theorem SameName.kind_eq {e e' : DirectoryEntry} (h : SameName e e') : e'.kind = e.kind :=
  kind_of_sameName h.name h.attributes

theorem SameName.keeps {e e' : DirectoryEntry} {st : LfnState} (h : SameName e e')
    (hk : e.kind ≠ .longName) (hok : ok st e) : ok st e' :=
  SlotRules.sameName hk h.name h.attributes hok

/-- `write_entry_at` with the same name. -/
theorem itemReplaced_set {it : Item} {e' : DirectoryEntry} (ht : Tidy ok es) (hit : it ∈ itemsOf es)
    (h : SameName it.entry e') : Tidy ok (es.set it.index e') ∧
      ItemReplaced es (es.set it.index e') it { it with entry := e' } := by
  obtain ⟨p, r, q, hb⟩ := itemBlock_of_mem ht hit
  have hset : es.set it.index e' = p ++ (r ++ [e']) ++ q := by
    rw [hb.eq, hb.index, ← List.append_assoc p r, ← List.append_assoc p r]
    rw [List.append_assoc (p ++ r), List.append_assoc (p ++ r), ← List.length_append,
      List.set_append_right _ _ (Nat.le_refl _), Nat.sub_self]
    rfl
  obtain ⟨hr, hok, -⟩ := checked_append.mp hb.block.tidy
  have hnew : ClosedBlock ok (r ++ [e']) := by
    refine ⟨checked_append.mpr ⟨hr, h.keeps (by simp [hb.live]) hok, trivial⟩, ?_⟩
    rw [List.foldl_append]
    exact lfnStep_dead (by rw [h.kind_eq, hb.live]; simp)
  rw [hset]
  refine hb.replace hnew (by simp) ?_
  have hitems := hb.items
  rw [dirItems_append (checked_name0_ne hr), dirItems_lfnAttributes hb.attributes,
    List.nil_append] at hitems ⊢
  simp only [dirItems, hb.live] at hitems
  simp only [dirItems, h.kind_eq, hb.live]
  rw [List.cons.injEq] at hitems
  rw [decode_of_sameName h.name, attached_of_sameName h.name, ← hitems.1]

/-- The slots of an entry replaced in place: a block that is not longer, the rest deleted. -/
theorem itemReplaced_inPlace {it it' : Item} (ht : Tidy ok es) (hit : it ∈ itemsOf es)
    (hlen : new.length ≤ it.lfnCount es + 1) (hnew : ClosedBlock ok new)
    (hitems : dirItems new (it.index - it.lfnCount es) .initial = [it']) :
    Tidy ok (deleteSpan (setSpan es (it.index - it.lfnCount es) new)
        (it.index - it.lfnCount es + new.length) (it.lfnCount es + 1 - new.length)) ∧
      ItemReplaced es (deleteSpan (setSpan es (it.index - it.lfnCount es) new)
        (it.index - it.lfnCount es + new.length) (it.lfnCount es + 1 - new.length)) it it' := by
  obtain ⟨p, r, q, hb⟩ := itemBlock_of_mem ht hit
  have hstart : it.index - it.lfnCount es = p.length := by
    rw [hb.index, ← hb.count]; omega
  rw [hstart] at hitems ⊢
  rw [← hb.count] at hlen ⊢
  have hblock : (r ++ [it.entry]).length = r.length + 1 := by simp
  -- the old block in two parts: what is overwritten and what is deleted
  generalize hx : (r ++ [it.entry]).take new.length = x
  generalize hy : (r ++ [it.entry]).drop new.length = y
  have hxy : r ++ [it.entry] = x ++ y := by rw [← hx, ← hy, List.take_append_drop]
  have hxl : new.length = x.length := by rw [← hx, List.length_take, hblock]; omega
  have hyl : r.length + 1 - new.length = y.length := by rw [← hy, List.length_drop, hblock]
  have hspan : deleteSpan (setSpan es p.length new) (p.length + new.length)
      (r.length + 1 - new.length) = p ++ (new ++ y.map .setDeleted) ++ q := by
    have h₁ : setSpan es p.length new = p ++ new ++ (y ++ q) := by
      have := setSpan_append p _ (y ++ q) hxl
      rw [← this, hb.eq, hxy]
      simp
    rw [h₁, deleteSpan, hyl, ← List.length_append]
    rw [List.drop_left, List.take_left]
    have h₂ := setSpan_append (p ++ new) y q (List.length_map DirectoryEntry.setDeleted)
    rw [← List.append_assoc, h₂]
    simp
  have hkind : ∀ z ∈ y.map DirectoryEntry.setDeleted, z.kind = .deleted := by
    intro z hz
    obtain ⟨w, -, rfl⟩ := List.mem_map.mp hz
    exact DirectoryEntry.kind_setDeleted
  rw [hspan]
  refine hb.replace (hnew.append (closedBlock_deleted hkind)) ?_ ?_
  · rw [List.length_append, List.length_map, ← hyl]; omega
  · have hnone : dirItems (y.map .setDeleted) (p.length + new.length) .initial = [] :=
      dirItems_free fun z hz => .inr (DirectoryEntry.kind_eq_deleted.mp (hkind z hz))
    rw [dirItems_closed hnew, hitems, hnone, List.append_nil]

/-! ## Changes that no scan sees -/

omit [SlotRules ok] in
/-- A cluster of zero slots behind the directory. -/
theorem itemsOf_append_zeros (h : ∀ x ∈ post, x.name0 = 0) :
    itemsOf (es ++ post) = itemsOf es := by
  have key : ∀ (es : List DirectoryEntry) (index : Nat) (st : LfnState),
      dirItems (es ++ post) index st = dirItems es index st := by
    intro es
    induction es with
    | nil => exact fun index st => dirItems_zeros h
    | cons x es ih =>
      intro index st
      cases hk : x.kind <;> simp only [List.cons_append, dirItems, hk, ih]
  exact key es 0 .initial

omit [SlotRules ok] in
theorem tidy_append_zeros (ht : Tidy ok es) (h : ∀ x ∈ post, x.name0 = 0) :
    Tidy ok (es ++ post) := by
  obtain ⟨body, tail, rfl, hbody, hdead, htail⟩ := ht
  exact ⟨body, tail ++ post, by simp, hbody, hdead,
    fun x hx => (List.mem_append.mp hx).elim (htail x) (h x)⟩

omit [SlotRules ok] in
/-- Another size or first cluster in a special slot. -/
theorem itemsOf_set_special {e' : DirectoryEntry} (hi : es[i]? = some e) (hk : e.kind = .special)
    (h : SameName e e') : itemsOf (es.set i e') = itemsOf es := by
  have key : ∀ (es : List DirectoryEntry) (i index : Nat) (st : LfnState), es[i]? = some e →
      dirItems (es.set i e') index st = dirItems es index st := by
    intro es
    induction es with
    | nil => intro i index st hi; simp at hi
    | cons x es ih =>
      intro i index st hi
      cases i with
      | zero =>
        simp only [List.getElem?_cons_zero, Option.some.injEq] at hi
        subst hi
        have hk' : e'.kind = .special := by rw [h.kind_eq, hk]
        simp only [List.set_cons_zero, dirItems, hk, hk']
        exact dirItems_alike ((lfnStep_dead (by simp [hk'])).alike (lfnStep_dead (by simp [hk])))
      | succ i =>
        rw [List.getElem?_cons_succ] at hi
        have ih' := ih i (index + 1) (lfnStep st x) hi
        cases hkx : x.kind <;> simp only [List.set_cons_succ, dirItems, hkx, ih']
  exact key es i 0 .initial hi

theorem tidy_set_special {e' : DirectoryEntry} (ht : Tidy ok es) (hi : es[i]? = some e)
    (hk : e.kind = .special) (h : SameName e e') : Tidy ok (es.set i e') := by
  have key : ∀ (es : List DirectoryEntry) (i : Nat) (st : LfnState), TidyFrom ok st es →
      es[i]? = some e → TidyFrom ok st (es.set i e') := by
    intro es
    induction es with
    | nil => intro i st _ hi; simp at hi
    | cons x es ih =>
      intro i st ht hi
      rcases tidyFrom_cons ht with ⟨h0, -, hz⟩ | ⟨hok, hrest⟩
      · have hmem := List.mem_of_getElem? hi
        have he0 : e.name0 = 0 := by
          rcases List.mem_cons.mp hmem with rfl | hm
          · exact h0
          · exact hz e hm
        rw [DirectoryEntry.kind_endMark he0] at hk
        cases hk
      · cases i with
        | zero =>
          simp only [List.getElem?_cons_zero, Option.some.injEq] at hi
          subst hi
          have hk' : e'.kind = .special := by rw [h.kind_eq, hk]
          have hal : (lfnStep st x).Alike (lfnStep st e') :=
            (lfnStep_dead (by simp [hk])).alike (lfnStep_dead (by simp [hk']))
          exact tidyFrom_append (a := [e']) ⟨h.keeps (by simp [hk]) hok, trivial⟩
            (hrest.alike hal)
        | succ i =>
          rw [List.getElem?_cons_succ] at hi
          exact tidyFrom_append (a := [x]) ⟨hok, trivial⟩ (ih i (lfnStep st x) hrest hi)
  exact key es i .initial ht hi

end

end FunnyOS.Fat32
