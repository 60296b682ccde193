import FunnyOS.Lib.EndsWhen
import FunnyOS.Memory.Balance
import FunnyOS.Memory.Isolation
import FunnyOS.Programs.ArgumentStrings
import FunnyOS.Programs.ImageLayout
import FunnyOS.Programs.Process

/-!
# What a loaded process has

A process owns the blocks of pages that its members point to, and the tables under its root. All
that `process_run_foreground` does keeps them in order, wherever it fails, and releases them all.
Where it comes to enter the program, the image and the stack are mapped.
-/

namespace FunnyOS.Programs

open Prog Devices
open Memory (FreePageRange Kernel Idle Hosting Invariant Balance translate tablesAt)

/-! ## The pages -/

/-- The kernel with the process that has the given root, where 0 is none. -/
structure InOrder (kernel : Kernel) (root : Nat) (held : List FreePageRange) : Prop where
  idle : root = 0 → Idle kernel held
  hosting : root ≠ 0 → Hosting kernel root held

/-- The block at a pointer, if there is one. -/
def blockAt (base pageCount : Nat) : List FreePageRange :=
  if base = 0 then [] else [⟨base, pageCount⟩]

@[simp] theorem blockAt_zero {n : Nat} : blockAt 0 n = [] := if_pos rfl

theorem blockAt_of_ne {base n : Nat} (h : base ≠ 0) : blockAt base n = [⟨base, n⟩] := if_neg h

section

variable {kernel kernel' : Kernel} {root : Nat} {held held' : List FreePageRange}

theorem InOrder.of_same (h : InOrder kernel root held)
    (hpages : ∀ others, Invariant (kernel.pages, others ++ held) →
      Invariant (kernel'.pages, others ++ held'))
    (hpml4 : kernel'.pml4 = kernel.pml4)
    (htables : ∀ t, (∀ b ∈ held, t ∉ b.addresses) → kernel'.tables t = kernel.tables t) :
    InOrder kernel' root held' :=
  ⟨fun hroot => (h.idle hroot).of_same kernel' hpages hpml4 htables,
    fun hroot => (h.hosting hroot).of_same kernel' hpages hpml4 htables⟩

theorem InOrder.perm (h : InOrder kernel root held) (hperm : held.Perm held') :
    InOrder kernel root held' :=
  h.of_same (fun others hinv => hinv.perm (hperm.append_left others)) rfl fun _ _ => rfl

theorem InOrder.cr3 (h : InOrder kernel root held) (cr3 : Nat) :
    InOrder { kernel with cr3 := cr3 } root held :=
  h.of_same (fun _ hinv => hinv) rfl fun _ _ => rfl

/-- `alloc_pages`. -/
theorem InOrder.alloc (h : InOrder kernel root held) (n : Nat) :
    InOrder (kernel.allocPages n).2 root (blockAt (kernel.allocPages n).1 n ++ held) := by
  obtain ⟨hpages, hbase, htables, hpml4⟩ := Memory.Kernel.allocPages_pages (s := kernel) n
  refine h.of_same ?_ hpml4 fun t _ => by rw [htables]
  intro others hinv
  have hafter := (Memory.CallStep.alloc kernel.pages held n).invariant_append hinv
  rw [← hpages, ← hbase] at hafter
  by_cases hzero : (kernel.allocPages n).1 = 0
  · rw [hzero, blockAt_zero, List.nil_append]
    rwa [if_pos hzero] at hafter
  · rw [blockAt_of_ne hzero]
    rwa [if_neg hzero] at hafter

/-- `free_pages`. -/
theorem InOrder.free {b : FreePageRange} (h : InOrder kernel root held)
    (hperm : held.Perm (b :: held')) :
    InOrder (kernel.freePages b.base b.pageCount) root held' := by
  refine (h.perm hperm).of_same ?_ rfl fun _ _ => rfl
  intro others hinv
  have hafter := (Memory.CallStep.free kernel.pages (b :: held') b List.mem_cons_self).invariant_append
    hinv
  rwa [List.erase_cons_head] at hafter

theorem InOrder.invariant (h : InOrder kernel root held) :
    ∃ others, Invariant (kernel.pages, others ++ held) := by
  by_cases hroot : root = 0
  · obtain ⟨owned, rank, hok, -⟩ := (h.idle hroot).tables
    exact ⟨_, hok.pages⟩
  · obtain ⟨owned, rank, hok, -⟩ := (h.hosting hroot).tables
    exact ⟨_, hok.pages⟩

/-- A block that is out lies below 4 GiB and begins with a page. -/
theorem InOrder.block {b : FreePageRange} (h : InOrder kernel root held) (hb : b ∈ held) :
    b.base % pageSize = 0 ∧ b.base + b.pageCount * pageSize ≤ 2 ^ 32 := by
  obtain ⟨others, hinv⟩ := h.invariant
  have hok := hinv.blocks b (List.mem_append_right _ hb)
  exact ⟨hok.aligned, hok.bounded⟩

end

/-- `InOrder`, where since `start` the process has taken from the free pages the tables under its
root and the blocks `mine`. -/
structure Balanced (start kernel : Kernel) (root : Nat) (mine others : List FreePageRange) : Prop where
  inOrder : InOrder kernel root (mine ++ others)
  balance : Balance start kernel (tablesAt kernel root ++ mine)

namespace Balanced

variable {start kernel : Kernel} {root : Nat} {mine mine' others : List FreePageRange}

theorem perm (h : Balanced start kernel root mine others) (hperm : mine.Perm mine') :
    Balanced start kernel root mine' others :=
  ⟨h.inOrder.perm (hperm.append_right others), h.balance.perm (hperm.append_left _)⟩

theorem cr3 (h : Balanced start kernel root mine others) (cr3 : Nat) :
    Balanced start { kernel with cr3 := cr3 } root mine others :=
  ⟨h.inOrder.cr3 cr3, h.balance.of_same rfl rfl⟩

/-- `alloc_pages`. -/
theorem alloc (h : Balanced start kernel root mine others) (n : Nat) :
    Balanced start (kernel.allocPages n).2 root (blockAt (kernel.allocPages n).1 n ++ mine)
      others := by
  obtain ⟨held, hinv⟩ := h.inOrder.invariant
  have hbalance := h.balance.alloc hinv n
  obtain ⟨-, -, htables, -⟩ := Memory.Kernel.allocPages_pages (s := kernel) n
  have hsame : tablesAt (kernel.allocPages n).2 root = tablesAt kernel root := by
    rw [tablesAt, tablesAt, Memory.ownTables, Memory.ownTables, htables]
  constructor
  · rw [List.append_assoc]
    exact h.inOrder.alloc n
  · rw [hsame]
    exact hbalance.perm (List.perm_append_comm_assoc ..)

/-- `free_pages`. -/
theorem free {b : FreePageRange} (h : Balanced start kernel root mine others)
    (hperm : mine.Perm (b :: mine')) :
    Balanced start (kernel.freePages b.base b.pageCount) root mine' others := by
  have hfirst := h.perm hperm
  obtain ⟨held, hinv⟩ := hfirst.inOrder.invariant
  constructor
  · exact hfirst.inOrder.free (List.Perm.refl _)
  · exact (hfirst.balance.perm List.perm_middle).free hinv
      (List.mem_append_right _ List.mem_cons_self)

end Balanced

/-- The blocks of pages that the process has. -/
def ForegroundState.blocks (s : ForegroundState) : List FreePageRange :=
  blockAt s.pages.imageBacking s.process.addressSpace.imagePageCount ++
    (blockAt s.pages.stackBacking s.process.addressSpace.stackPageCount ++
      blockAt s.pages.fileBuffer s.process.addressSpace.filePageCount)

/-- The kernel and the process are in order. `others` are the blocks that are neither the kernel's
tables nor the process's. -/
def Kept (others : List FreePageRange) (s : ForegroundState) : Prop :=
  InOrder s.kernel s.pages.pageTableRoot (s.blocks ++ others)

/-- `Kept`, where since `start` the free pages have lost what the process has and nothing else. -/
def KeptSince (start : Kernel) (others : List FreePageRange) (s : ForegroundState) : Prop :=
  Balanced start s.kernel s.pages.pageTableRoot s.blocks others

/-- A step that changes nothing of this, but for CR3. -/
structure Beside (s s' : ForegroundState) : Prop where
  kernel : ∃ cr3, s'.kernel = { s.kernel with cr3 := cr3 }
  pages : s'.pages = s.pages
  space : s'.process.addressSpace = s.process.addressSpace

section

variable {s s' s'' : ForegroundState} {start : Kernel} {others : List FreePageRange} {text : String}
  {root : Nat}

theorem Beside.refl : Beside s s := ⟨⟨s.kernel.cr3, rfl⟩, rfl, rfl⟩

theorem Beside.trans (h : Beside s s') (h' : Beside s' s'') : Beside s s'' := by
  obtain ⟨cr3, hkernel⟩ := h'.kernel
  obtain ⟨cr3', hkernel'⟩ := h.kernel
  exact ⟨⟨cr3, by rw [hkernel, hkernel']⟩, h'.pages.trans h.pages, h'.space.trans h.space⟩

theorem Kept.beside (h : Kept others s) (hs : Beside s s') : Kept others s' := by
  obtain ⟨cr3, hkernel⟩ := hs.kernel
  unfold Kept ForegroundState.blocks at *
  rw [hkernel, hs.pages, hs.space]
  exact h.cr3 cr3

theorem KeptSince.kept (h : KeptSince start others s) : Kept others s := h.inOrder

theorem KeptSince.beside (h : KeptSince start others s) (hs : Beside s s') :
    KeptSince start others s' := by
  obtain ⟨cr3, hkernel⟩ := hs.kernel
  unfold KeptSince ForegroundState.blocks at *
  rw [hkernel, hs.pages, hs.space]
  exact h.cr3 cr3

theorem refuse_ends {α : Type} {Q : α → ForegroundState → Prop} {E : Unit → ForegroundState → Prop}
    (h : E () { s with console := text :: s.console }) :
    Ends (loading (refuse text) : Foreground α) s Q E := h

theorem refuse_beside {α : Type} {Q : α → ForegroundState → Prop} {E : Unit → ForegroundState → Prop}
    (h : ∀ s', Beside s s' → E () s') : Ends (loading (refuse text) : Foreground α) s Q E :=
  refuse_ends (h _ ⟨⟨s.kernel.cr3, rfl⟩, rfl, rfl⟩)

theorem pagingActivateRoot_beside :
    Beside s { s with kernel := Memory.pagingActivateRoot s.kernel root } := by
  refine ⟨?_, rfl, rfl⟩
  simp only [Memory.pagingActivateRoot]
  split
  · exact ⟨_, rfl⟩
  · exact ⟨s.kernel.cr3, rfl⟩

/-! ## Giving back -/

theorem freeBacking_balanced {backing : ProcessPages → Nat} {clear : ProcessPages → ProcessPages}
    {pageCount : ProcessAddressSpace → Nat} {mine mine' : List FreePageRange}
    (h : Balanced start s.kernel s.pages.pageTableRoot mine others)
    (hmine : mine.Perm (blockAt (backing s.pages) (pageCount s.process.addressSpace) ++ mine')) :
    Balanced start (freeBacking backing clear pageCount s).kernel s.pages.pageTableRoot mine'
      others := by
  unfold freeBacking
  by_cases hzero : backing s.pages = 0
  · rw [if_neg (not_not_intro hzero)]
    rw [hzero, blockAt_zero, List.nil_append] at hmine
    exact h.perm hmine
  · rw [if_pos hzero]
    rw [blockAt_of_ne hzero] at hmine
    exact h.free hmine

theorem freeBacking_pages {backing : ProcessPages → Nat} {clear : ProcessPages → ProcessPages}
    {pageCount : ProcessAddressSpace → Nat} (hclear : backing s.pages = 0 → clear s.pages = s.pages) :
    (freeBacking backing clear pageCount s).pages = clear s.pages ∧
      (freeBacking backing clear pageCount s).process = s.process := by
  unfold freeBacking
  by_cases hzero : backing s.pages = 0
  · rw [if_neg (not_not_intro hzero), hclear hzero]
    exact ⟨rfl, rfl⟩
  · rw [if_pos hzero]
    exact ⟨rfl, rfl⟩

theorem freeImageBacking_pages :
    (freeImageBacking s).pages = { s.pages with imageBacking := 0 } ∧
      (freeImageBacking s).process = s.process :=
  freeBacking_pages fun hzero => by rw [← hzero]

theorem freeStackBacking_pages :
    (freeStackBacking s).pages = { s.pages with stackBacking := 0 } ∧
      (freeStackBacking s).process = s.process :=
  freeBacking_pages fun hzero => by rw [← hzero]

theorem freeFileBuffer_pages :
    (freeFileBuffer s).pages = { s.pages with fileBuffer := 0 } ∧
      (freeFileBuffer s).process = s.process :=
  freeBacking_pages fun hzero => by rw [← hzero]

theorem destroyRoot_pages : (destroyRoot s).pages = { s.pages with pageTableRoot := 0 } := by
  unfold destroyRoot
  by_cases hzero : s.pages.pageTableRoot = 0
  · rw [if_neg (not_not_intro hzero), ← hzero]
  · rw [if_pos hzero]

theorem freeImageBacking_kept (h : KeptSince start others s) :
    KeptSince start others (freeImageBacking s) := by
  obtain ⟨hpages, hprocess⟩ := freeImageBacking_pages (s := s)
  unfold KeptSince ForegroundState.blocks
  rw [hpages, hprocess, blockAt_zero, List.nil_append]
  exact freeBacking_balanced h (List.Perm.refl _)

theorem freeStackBacking_kept (h : KeptSince start others s) :
    KeptSince start others (freeStackBacking s) := by
  obtain ⟨hpages, hprocess⟩ := freeStackBacking_pages (s := s)
  unfold KeptSince ForegroundState.blocks
  rw [hpages, hprocess, blockAt_zero, List.nil_append]
  refine freeBacking_balanced h ?_
  exact List.perm_append_comm_assoc ..

theorem freeFileBuffer_kept (h : KeptSince start others s) :
    KeptSince start others (freeFileBuffer s) := by
  obtain ⟨hpages, hprocess⟩ := freeFileBuffer_pages (s := s)
  unfold KeptSince ForegroundState.blocks
  rw [hpages, hprocess, blockAt_zero, List.append_nil]
  refine freeBacking_balanced h ?_
  rw [ForegroundState.blocks, ← List.append_assoc]
  exact List.perm_append_comm

theorem destroyRoot_kept (h : KeptSince start others s) : KeptSince start others (destroyRoot s) := by
  unfold destroyRoot
  by_cases hzero : s.pages.pageTableRoot = 0
  · rw [if_neg (not_not_intro hzero)]
    exact h
  · rw [if_pos hzero]
    have hhosting := h.inOrder.hosting hzero
    exact ⟨⟨fun _ => hhosting.destroy, fun hne => absurd rfl hne⟩, h.balance.destroy hhosting⟩

/-- `process_release_address_space` leaves the kernel without a process, and gives back all that the
process has. -/
theorem processReleaseAddressSpace_idle (h : KeptSince start others s) :
    Idle (processReleaseAddressSpace s).kernel others ∧
      Balance start (processReleaseAddressSpace s).kernel [] := by
  have hkept := destroyRoot_kept (freeFileBuffer_kept (freeStackBacking_kept
    (freeImageBacking_kept h)))
  have hpages : (destroyRoot (freeFileBuffer (freeStackBacking (freeImageBacking s)))).pages =
      ⟨0, 0, 0, 0⟩ := by
    rw [destroyRoot_pages, freeFileBuffer_pages.1, freeStackBacking_pages.1,
      freeImageBacking_pages.1]
  unfold KeptSince ForegroundState.blocks at hkept
  rw [hpages] at hkept
  exact ⟨hkept.inOrder.idle rfl, hkept.balance⟩

/-! ## The address space -/

/-- User code comes to no address under the root of the process but to those with `P`. -/
def OnlyTo (s : ForegroundState) (P : Nat → Prop) : Prop :=
  ∀ a x, translate s.kernel.tables s.pages.pageTableRoot a = some x → x.user = true → P a

theorem OnlyTo.of_same {P : Nat → Prop} (h : OnlyTo s P)
    (hroot : s'.pages.pageTableRoot = s.pages.pageTableRoot)
    (htables : ∀ a, translate s'.kernel.tables s.pages.pageTableRoot a =
      translate s.kernel.tables s.pages.pageTableRoot a) : OnlyTo s' P := by
  intro a x hx huser
  rw [hroot, htables] at hx
  exact h a x hx huser

/-- A step that has given the process a block. -/
def Backed (others : List FreePageRange) (s : ForegroundState)
    (set : Nat → ProcessPages → ProcessPages) (s' : ForegroundState) : Prop :=
  ∃ kernel base, base ≠ 0 ∧ s' = { s with kernel := kernel, pages := set base s.pages } ∧
    Kept others s'

theorem allocBacking_ends {set : Nat → ProcessPages → ProcessPages}
    {pageCount : ProcessAddressSpace → Nat} (h : KeptSince start others s)
    (hroot : ∀ base, (set base s.pages).pageTableRoot = s.pages.pageTableRoot)
    (hblocks : ∀ base kernel, ForegroundState.blocks
      { s with kernel := kernel, pages := set base s.pages } |>.Perm
        (blockAt base (pageCount s.process.addressSpace) ++ s.blocks)) :
    Ends (allocBacking set pageCount text) s
      (fun _ s' => Backed others s set s' ∧ KeptSince start others s' ∧
        ∀ P, OnlyTo s P → OnlyTo s' P)
      (fun _ s' => KeptSince start others s') := by
  have halloc := Balanced.alloc h (pageCount s.process.addressSpace)
  obtain ⟨-, -, htables, -⟩ := Memory.Kernel.allocPages_pages (s := s.kernel)
    (pageCount s.process.addressSpace)
  generalize hcall : s.kernel.allocPages (pageCount s.process.addressSpace) = result
    at halloc htables
  have hrun : allocPages (pageCount s.process.addressSpace) s
      = .ok result.1 { s with kernel := result.2 } := by
    rw [← hcall]
    rfl
  have hkept : KeptSince start others
      { s with kernel := result.2, pages := set result.1 s.pages } := by
    unfold KeptSince
    rw [hroot]
    exact halloc.perm (hblocks result.1 result.2).symm
  unfold allocBacking
  refine Ends.get_bind (Ends.of_bind_ok hrun (Ends.modify_bind (Ends.ite (fun _ => ?_) fun hne => ?_)))
  · exact refuse_beside fun s' hs => hkept.beside hs
  · refine Ends.pure ⟨⟨result.2, result.1, hne, rfl, hkept.kept⟩, hkept, fun P hP => ?_⟩
    exact hP.of_same (hroot _) fun a => congrArg (translate · _ a) htables

theorem backImage_ends (h : KeptSince start others s) (hnone : s.pages.imageBacking = 0) :
    Ends backImage s
      (fun _ s' => Backed others s (fun base pages => { pages with imageBacking := base }) s' ∧
        KeptSince start others s' ∧ ∀ P, OnlyTo s P → OnlyTo s' P)
      (fun _ s' => KeptSince start others s') := by
  refine allocBacking_ends h (fun _ => rfl) fun base kernel => ?_
  rw [ForegroundState.blocks, ForegroundState.blocks, hnone, blockAt_zero, List.nil_append]

theorem backStack_ends (h : KeptSince start others s) (hnone : s.pages.stackBacking = 0) :
    Ends backStack s
      (fun _ s' => Backed others s (fun base pages => { pages with stackBacking := base }) s' ∧
        KeptSince start others s' ∧ ∀ P, OnlyTo s P → OnlyTo s' P)
      (fun _ s' => KeptSince start others s') := by
  refine allocBacking_ends h (fun _ => rfl) fun base kernel => ?_
  rw [ForegroundState.blocks, ForegroundState.blocks, hnone, blockAt_zero, List.nil_append]
  exact List.perm_append_comm_assoc ..

theorem backFile_ends (h : KeptSince start others s) (hnone : s.pages.fileBuffer = 0) :
    Ends backFile s
      (fun _ s' => Backed others s (fun base pages => { pages with fileBuffer := base }) s' ∧
        KeptSince start others s' ∧ ∀ P, OnlyTo s P → OnlyTo s' P)
      (fun _ s' => KeptSince start others s') := by
  refine allocBacking_ends h (fun _ => rfl) fun base kernel => ?_
  rw [ForegroundState.blocks, ForegroundState.blocks, hnone, blockAt_zero, List.append_nil,
    ← List.append_assoc]
  exact List.perm_append_comm

/-- Where a region is mapped, and that every other page is where it was. -/
structure MapsRegion (s : ForegroundState) (base size backing : Nat) (executable : Bool)
    (s' : ForegroundState) : Prop where
  inside : ∀ i < size, translate s'.kernel.tables s.pages.pageTableRoot (base + i) =
    some ⟨backing + i, true, true, executable⟩
  outside : ∀ a, ¬ Memory.InPages base size a →
    translate s'.kernel.tables s.pages.pageTableRoot a =
      translate s.kernel.tables s.pages.pageTableRoot a

/-- Where a region is mapped, user code comes to its pages besides. -/
theorem OnlyTo.mapped {P : Nat → Prop} {base size backing : Nat} {executable : Bool}
    (h : OnlyTo s P) (hmaps : MapsRegion s base size backing executable s')
    (hroot : s'.pages.pageTableRoot = s.pages.pageTableRoot) :
    OnlyTo s' fun a => P a ∨ Memory.InPages base size a := by
  intro a x hx huser
  by_cases hin : Memory.InPages base size a
  · exact .inr hin
  · rw [hroot, hmaps.outside a hin] at hx
    exact .inl (h a x hx huser)

theorem mapBacking_ends {base size : ProcessAddressSpace → Nat} {backing : ProcessPages → Nat}
    {executable : Bool} (h : KeptSince start others s) (hroot : s.pages.pageTableRoot ≠ 0)
    (hmod : base s.process.addressSpace % pageSize = backing s.pages % pageSize)
    (hvirt : base s.process.addressSpace + size s.process.addressSpace ≤ 2 ^ 48 - pageSize)
    (hphys : backing s.pages + size s.process.addressSpace ≤ 2 ^ 51) :
    Ends (mapBacking base size backing executable text) s
      (fun _ s' => (∃ kernel, s' = { s with kernel := kernel }) ∧ KeptSince start others s' ∧
        MapsRegion s (base s.process.addressSpace) (size s.process.addressSpace)
          (backing s.pages) executable s')
      (fun _ s' => KeptSince start others s') := by
  have hhosting := h.inOrder.hosting hroot
  have hafter := hhosting.mapUserRange (base s.process.addressSpace) (backing s.pages)
    (size s.process.addressSpace) true executable
  have hbalance := h.balance.mapUserRange hhosting (base s.process.addressSpace) (backing s.pages)
    (size s.process.addressSpace) true executable
  obtain ⟨hinside, houtside⟩ := hhosting.mapUserRange_maps hmod hvirt hphys true executable
  generalize hcall : Memory.pagingMapUserRange s.kernel s.pages.pageTableRoot
    (base s.process.addressSpace) (backing s.pages) (size s.process.addressSpace) true executable
    = result at hafter hbalance hinside houtside
  have hrun : pagingMapUserRange (base s.process.addressSpace) (backing s.pages)
      (size s.process.addressSpace) true executable s
      = .ok result.1 { s with kernel := result.2 } := by
    rw [← hcall]
    rfl
  have hkept : KeptSince start others { s with kernel := result.2 } :=
    ⟨⟨fun hzero => absurd hzero hroot, fun _ => hafter⟩, hbalance⟩
  unfold mapBacking
  refine Ends.get_bind (Ends.of_bind_ok hrun (Ends.ite (fun _ => ?_) fun hok => ?_))
  · exact refuse_beside fun s' hs => hkept.beside hs
  · have hdone : result.1 = true := by simpa using hok
    exact Ends.pure ⟨⟨result.2, rfl⟩, hkept, hinside hdone, houtside⟩

/-- Where the image and the stack of a process lie, and how many pages back them. -/
structure Placed (space : ProcessAddressSpace) : Prop where
  aligned : space.imageBase % pageSize = 0
  base_le : processAbiImageBase ≤ space.imageBase
  le_limit : space.imageBase + space.imageCapacity ≤ processAbiImageLimit
  imageBacked : space.imageCapacity ≤ space.imagePageCount * pageSize
  stackBase : space.stackBase = processAbiStackBase
  stackSize : space.stackSize = processAbiStackSize
  stackBacked : space.stackSize ≤ space.stackPageCount * pageSize

/-- The image and the stack of the process are mapped to its own pages. -/
structure Mapped (s : ForegroundState) : Prop where
  placed : Placed s.process.addressSpace
  root : s.pages.pageTableRoot ≠ 0
  image : ∀ i < s.process.addressSpace.imageCapacity,
    translate s.kernel.tables s.pages.pageTableRoot (s.process.addressSpace.imageBase + i) =
      some ⟨s.pages.imageBacking + i, true, true, true⟩
  stack : ∀ i < s.process.addressSpace.stackSize,
    translate s.kernel.tables s.pages.pageTableRoot (s.process.addressSpace.stackBase + i) =
      some ⟨s.pages.stackBacking + i, true, true, false⟩

theorem Mapped.of_same (h : Mapped s) (hpages : s'.pages = s.pages)
    (hspace : s'.process.addressSpace = s.process.addressSpace)
    (htables : ∀ a, translate s'.kernel.tables s.pages.pageTableRoot a =
      translate s.kernel.tables s.pages.pageTableRoot a) : Mapped s' := by
  constructor
  · rw [hspace]
    exact h.placed
  · rw [hpages]
    exact h.root
  · intro i hi
    rw [hspace] at hi ⊢
    rw [hpages, htables]
    exact h.image i hi
  · intro i hi
    rw [hspace] at hi ⊢
    rw [hpages, htables]
    exact h.stack i hi

theorem Mapped.beside (h : Mapped s) (hs : Beside s s') : Mapped s' := by
  obtain ⟨cr3, hkernel⟩ := hs.kernel
  exact h.of_same hs.pages hs.space fun a => by rw [hkernel]

/-- User code comes only to the pages of the image and of the stack, and the image is made of whole
pages. -/
structure Secluded (s : ForegroundState) : Prop where
  whole : s.process.addressSpace.imageCapacity % pageSize = 0
  only : OnlyTo s fun a =>
    Memory.InPages s.process.addressSpace.imageBase s.process.addressSpace.imageCapacity a ∨
      Memory.InPages s.process.addressSpace.stackBase s.process.addressSpace.stackSize a

theorem Secluded.of_same (h : Secluded s) (hpages : s'.pages = s.pages)
    (hspace : s'.process.addressSpace = s.process.addressSpace)
    (htables : ∀ a, translate s'.kernel.tables s.pages.pageTableRoot a =
      translate s.kernel.tables s.pages.pageTableRoot a) : Secluded s' := by
  have honly := h.only.of_same (congrArg ProcessPages.pageTableRoot hpages) htables
  constructor
  · rw [hspace]
    exact h.whole
  · rw [hspace]
    exact honly

theorem Secluded.beside (h : Secluded s) (hs : Beside s s') : Secluded s' := by
  obtain ⟨cr3, hkernel⟩ := hs.kernel
  exact h.of_same hs.pages hs.space fun a => by rw [hkernel]

/-- The image ends below the stack. -/
theorem Placed.apart {space : ProcessAddressSpace} (h : Placed space) {i : Nat}
    (hi : i < space.imageCapacity) :
    ¬ Memory.InPages space.stackBase space.stackSize (space.imageBase + i) := by
  have hlimit := h.le_limit
  have hstart : Memory.alignDownPage space.stackBase Memory.pageSize = processAbiStackBase := by
    rw [h.stackBase]
    decide
  have hmod := Nat.mod_le (space.imageBase + i) (2 ^ 48)
  rw [Memory.InPages, hstart]
  simp only [processAbiImageLimit, processAbiStackGap] at hlimit
  omega

theorem Placed.ends {space : ProcessAddressSpace} (h : Placed space) :
    space.imageBase + space.imageCapacity ≤ 2 ^ 48 - pageSize ∧
      space.stackBase + space.stackSize ≤ 2 ^ 48 - pageSize ∧ space.stackBase % pageSize = 0 := by
  have himage : processAbiImageLimit ≤ 2 ^ 48 - pageSize := by decide
  rw [h.stackBase, h.stackSize]
  exact ⟨h.le_limit.trans himage, by decide, by decide⟩

/-- `process_prepare_address_space`. -/
theorem processPrepareAddressSpace_ends (h : KeptSince start others s) (hroot : s.pages.pageTableRoot = 0)
    (himage : s.pages.imageBacking = 0) (hstack : s.pages.stackBacking = 0)
    (hplaced : Placed s.process.addressSpace)
    (hwhole : s.process.addressSpace.imageCapacity % pageSize = 0) :
    Ends processPrepareAddressSpace s
      (fun _ s' => KeptSince start others s' ∧ Mapped s' ∧ Secluded s' ∧ s'.process = s.process ∧
        s'.runtime = s.runtime)
      (fun _ s' => KeptSince start others s') := by
  have hidle := h.inOrder.idle hroot
  have hnone := h.balance
  rw [hroot, Memory.tablesAt_zero, List.nil_append] at hnone
  have hbalance := hnone.create hidle
  have hsealed : (Memory.pagingCreateAddressSpace s.kernel).1 ≠ 0 → OnlyTo { s with
      kernel := (Memory.pagingCreateAddressSpace s.kernel).2
      pages := { s.pages with pageTableRoot := (Memory.pagingCreateAddressSpace s.kernel).1 } }
      fun _ => False := by
    intro hne a x hx huser
    exact absurd ((Memory.pagingCreateAddressSpace_sealed hidle hne hx).symm.trans huser) (by decide)
  generalize hcall : Memory.pagingCreateAddressSpace s.kernel = result at hbalance hsealed
  have hrun : pagingCreateAddressSpace s = .ok result.1 { s with kernel := result.2 } := by
    rw [← hcall]
    rfl
  have hkept : KeptSince start others
      { s with kernel := result.2, pages := { s.pages with pageTableRoot := result.1 } } := by
    refine ⟨?_, hbalance⟩
    rcases Memory.pagingCreateAddressSpace_hosting hidle with hnone | ⟨root, kernel, hne, hsome, hnew⟩
    · rw [hcall] at hnone
      rw [hnone]
      exact ⟨fun _ => hidle, fun hne => absurd rfl hne⟩
    · rw [hcall] at hsome
      rw [hsome]
      exact ⟨fun hzero => absurd hzero hne, fun _ => hnew⟩
  unfold processPrepareAddressSpace
  refine Ends.of_bind_ok hrun (Ends.modify_bind (Ends.ite (fun _ => ?_) fun hne => ?_))
  · exact refuse_beside fun s' hs => hkept.beside hs
  refine Ends.orElse (F := fun _ s' => KeptSince start others s') ?_ fun _ s' hs' => Ends.modify_bind
    (Ends.raise (destroyRoot_kept (freeImageBacking_kept (freeStackBacking_kept hs'))))
  refine Ends.bind (backImage_ends hkept himage) (fun _ _ h => h) fun _ s₁ h₁ => ?_
  obtain ⟨⟨k₁, image, himage, rfl, -⟩, hkept₁, honly₁⟩ := h₁
  refine Ends.bind (backStack_ends hkept₁ hstack) (fun _ _ h => h) fun _ s₂ h₂ => ?_
  obtain ⟨⟨k₂, stack, hstack, rfl, -⟩, hkept₂, honly₂⟩ := h₂
  have hblock : image % pageSize = 0 ∧
      image + s.process.addressSpace.imagePageCount * pageSize ≤ 2 ^ 32 :=
    InOrder.block (b := ⟨image, _⟩) hkept₂.kept (by simp [ForegroundState.blocks, blockAt_of_ne himage])
  have hblock' : stack % pageSize = 0 ∧
      stack + s.process.addressSpace.stackPageCount * pageSize ≤ 2 ^ 32 :=
    InOrder.block (b := ⟨stack, _⟩) hkept₂.kept (by simp [ForegroundState.blocks, blockAt_of_ne hstack])
  obtain ⟨himageEnd, hstackEnd, hstackAligned⟩ := hplaced.ends
  have himageSize := hplaced.imageBacked
  have hstackSize := hplaced.stackBacked
  refine Ends.bind (mapBacking_ends hkept₂ hne (hplaced.aligned.trans hblock.1.symm) himageEnd ?_)
    (fun _ _ h => h) fun _ s₃ h₃ => ?_
  · change image + s.process.addressSpace.imageCapacity ≤ 2 ^ 51
    omega
  obtain ⟨⟨k₃, rfl⟩, hkept₃, himaged⟩ := h₃
  refine Ends.mono (mapBacking_ends hkept₃ hne (hstackAligned.trans hblock'.1.symm) hstackEnd ?_)
    (fun _ s₄ h₄ => ?_) fun _ _ h => h
  · change stack + s.process.addressSpace.stackSize ≤ 2 ^ 51
    omega
  obtain ⟨⟨k₄, rfl⟩, hkept₄, hstacked⟩ := h₄
  refine ⟨hkept₄, ⟨hplaced, hne, fun i hi => ?_, hstacked.inside⟩, ⟨hwhole, ?_⟩, rfl, rfl⟩
  · exact (hstacked.outside _ (hplaced.apart hi)).trans (himaged.inside i hi)
  · have hbacked := honly₂ _ (honly₁ _ (hsealed hne))
    have honly := (hbacked.mapped himaged rfl).mapped hstacked rfl
    intro a x hx huser
    rcases honly a x hx huser with (hfalse | himageOnly) | hstackOnly
    · exact hfalse.elim
    · exact .inl himageOnly
    · exact .inr hstackOnly

end

/-! ## The layout of the image -/

section

variable {s : LoadState} {layout : ImageLayout} {header : Elf64Header} {indices : List Nat}
  {segment : Elf64ProgramHeader} {fileSize kernelImageEnd index offset count : Nat}

/-- The image begins with a page as soon as there is one. -/
def Paged (layout : ImageLayout) : Prop :=
  layout.imageMin % pageSize = 0 ∨ layout = ⟨2 ^ 64 - 1, 0, false⟩

theorem readFile_same : Sat (readFile offset count) s (fun _ s' => s' = s) (fun _ _ => False) := by
  unfold Sat readFile
  by_cases h : offset + count ≤ s.process.image.fileBuffer.length
  · rw [if_pos h]
  · rw [if_neg h]
    trivial

theorem readProgramHeader_same : Sat (readProgramHeader header index) s
    (fun _ s' => s' = s) (fun _ _ => False) := by
  exact Sat.bind readFile_same (fun _ _ h => h) fun _ _ h => Sat.pure h

theorem configureSegment_paged (h : Paged layout) (hend : layout.imageEnd % pageSize = 0) :
    Sat (configureSegment fileSize segment layout) s
      (fun layout' s' => s' = s ∧ Paged layout' ∧ layout'.imageEnd % pageSize = 0)
      (fun _ s' => s'.process = s.process) := by
  refine Sat.ite (fun _ => Sat.pure ⟨rfl, h, hend⟩) fun _ => Sat.ite (fun _ => rfl) fun _ => ?_
  refine Sat.ite (fun _ => rfl) fun hplace => Sat.pure ⟨rfl, .inl ?_, ?_⟩
  · have hdown : alignDownPage segment.vaddr % pageSize = 0 := Nat.mul_mod_left ..
    have hle : alignDownPage segment.vaddr ≤ segment.vaddr := Nat.div_mul_le_self ..
    have hlimit : segment.vaddr < processAbiImageLimit := by omega
    by_cases hless : alignDownPage segment.vaddr < layout.imageMin
    · simp only [if_pos hless]
      exact hdown
    · simp only [if_neg hless]
      rcases h with haligned | rfl
      · exact haligned
      · have htop : processAbiImageLimit < 2 ^ 64 - 1 := by decide
        exact absurd (by simp only; omega) hless
  · simp only
    split
    · exact Nat.mul_mod_left ..
    · exact hend

theorem configureSegments_paged (h : Paged layout) (hend : layout.imageEnd % pageSize = 0) :
    Sat (configureSegments fileSize header indices layout) s
      (fun layout' s' => s' = s ∧ Paged layout' ∧ layout'.imageEnd % pageSize = 0)
      (fun _ s' => s'.process = s.process) := by
  induction indices generalizing layout with
  | nil => exact Sat.pure ⟨rfl, h, hend⟩
  | cons index rest ih =>
    refine Sat.bind readProgramHeader_same (fun _ _ h => h.elim) fun segment s₁ h₁ => ?_
    subst h₁
    refine Sat.bind (configureSegment_paged h hend) (fun _ _ h => h) fun layout' s₂ h₂ => ?_
    obtain ⟨rfl, hpaged, hend'⟩ := h₂
    exact ih hpaged hend'

/-- The address space with another place for the image. -/
def Relaid (space space' : ProcessAddressSpace) : Prop :=
  ∃ base capacity pageCount, space' =
    { space with imageBase := base, imageCapacity := capacity, imagePageCount := pageCount }

theorem Relaid.refl (space : ProcessAddressSpace) : Relaid space space := ⟨_, _, _, rfl⟩

theorem le_bytesToPages {n : Nat} (h : n < 2 ^ 63) : n ≤ bytesToPages n * pageSize := by
  simp only [bytesToPages, pageSize]
  omega

/-- What `process_configure_image_layout` accepts is placed, and made of whole pages. -/
theorem processConfigureImageLayout_placed
    (hs : s.process.addressSpace = (processResetFields []).addressSpace) :
    Sat (processConfigureImageLayout kernelImageEnd fileSize) s
      (fun _ s' => Placed s'.process.addressSpace ∧
        s'.process.addressSpace.imageCapacity % pageSize = 0 ∧
        Relaid s.process.addressSpace s'.process.addressSpace)
      (fun _ s' => Relaid s.process.addressSpace s'.process.addressSpace) := by
  have hsame : ∀ s' : LoadState, s'.process = s.process →
      Relaid s.process.addressSpace s'.process.addressSpace := by
    intro s' hprocess
    rw [hprocess]
    exact .refl _
  have hheader : Sat readHeader s (fun _ s' => s' = s) (fun _ _ => False) :=
    Sat.bind readFile_same (fun _ _ h => h) fun _ _ h => Sat.pure h
  unfold processConfigureImageLayout
  refine Sat.ite (fun _ => hsame _ rfl) fun _ => ?_
  refine Sat.bind hheader (fun _ _ h => h.elim) fun header s₁ h₁ => ?_
  subst h₁
  refine Sat.ite (fun _ => hsame _ rfl) fun _ => ?_
  refine Sat.bind (configureSegments_paged (.inr rfl) rfl) (fun _ s' h => hsame s' h)
    fun layout s₁ h₁ => ?_
  obtain ⟨rfl, hpaged, hend⟩ := h₁
  refine Sat.ite (fun _ => hsame _ rfl) fun hload => ?_
  refine Sat.ite (fun _ => hsame _ rfl) fun _ => Sat.ite (fun _ => hsame _ rfl) fun _ => ?_
  refine Sat.ite (fun _ => hsame _ rfl) fun hne => Sat.modify_bind (Sat.get_bind ?_)
  have hrelaid : Relaid s₁.process.addressSpace { s₁.process.addressSpace with
      imageBase := layout.imageMin
      imageCapacity := layout.imageEnd - layout.imageMin
      imagePageCount := bytesToPages (layout.imageEnd - layout.imageMin) } := ⟨_, _, _, rfl⟩
  refine Sat.ite (fun _ => hrelaid) fun hlimits => ?_
  have hstack : s₁.process.addressSpace.stackBase = processAbiStackBase := by rw [hs]; rfl
  have hbase : processAbiImageBase ≤ layout.imageMin := not_lt.mp fun h => hlimits (.inl h)
  have hlimit : layout.imageEnd ≤ processAbiImageLimit := not_lt.mp fun h => hlimits (.inr h)
  have hgap : ¬ (layout.imageEnd + processAbiStackGap) % 2 ^ 64 >
      s₁.process.addressSpace.stackBase := by
    rw [hstack]
    simp only [processAbiImageLimit, processAbiStackBase, processAbiStackTop,
      Memory.processAbiRegionEnd, processAbiStackSize, processAbiStackGap] at *
    omega
  simp only [if_neg hgap]
  refine Sat.modify ?_
  have htop : processAbiImageLimit < 2 ^ 63 := by decide
  have haligned : layout.imageMin % pageSize = 0 := by
    rcases hpaged with haligned | rfl
    · exact haligned
    · exact absurd rfl hload
  refine ⟨⟨haligned, hbase, ?_, le_bytesToPages ?_, hstack, ?_, ?_⟩, ?_, hrelaid⟩
  · change layout.imageMin + (layout.imageEnd - layout.imageMin) ≤ processAbiImageLimit
    omega
  · change layout.imageEnd - layout.imageMin < 2 ^ 63
    omega
  · change s₁.process.addressSpace.stackSize = processAbiStackSize
    rw [hs]
    rfl
  · change s₁.process.addressSpace.stackSize ≤ s₁.process.addressSpace.stackPageCount * pageSize
    rw [hs]
    decide
  · change (layout.imageEnd - layout.imageMin) % pageSize = 0
    simp only [pageSize] at haligned hend ⊢
    omega

end

end FunnyOS.Programs
