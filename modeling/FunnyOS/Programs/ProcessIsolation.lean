import FunnyOS.Programs.UserMemory

/-!
# What a program can reach

The page table that `process_load_binary` prepares, from there on as long as the program runs: user
code comes to the image and to the stack and nowhere else, there to the process's own pages, and the
kernel's root translates every address as it does, whatever is mapped under that of the process.
-/

namespace FunnyOS.Programs

open Prog
open Memory (FreePageRange HostedCall translate)

variable {m m₁ s : ForegroundState} {blocks : List FreePageRange} {acts : List ProgramAct}

/-- The addresses that the processor takes: the bits from 47 on are alike. -/
def Canonical (a : Nat) : Prop := a < 2 ^ 47 ∨ 2 ^ 64 - 2 ^ 47 ≤ a ∧ a < 2 ^ 64

/-- User code comes to the address: each entry on the way is present and lets it through. -/
def UserReaches (m : ForegroundState) (a : Nat) : Prop :=
  ∃ x, translate m.kernel.tables m.pages.pageTableRoot a = some x ∧ x.user = true

/-- User code comes to the image and the stack and nowhere else, and there to the pages of the
process. Calls that map ranges under its root change no translation of the kernel's. -/
structure Isolated (m : ForegroundState) : Prop where
  reaches : ∀ a, Canonical a →
    (UserReaches m a ↔ a ∈ m.process.addressSpace.image ∪ m.process.addressSpace.stack)
  image : ∀ i < m.process.addressSpace.imageCapacity,
    translate m.kernel.tables m.pages.pageTableRoot (m.process.addressSpace.imageBase + i) =
      some ⟨m.pages.imageBacking + i, true, true, true⟩
  stack : ∀ i < m.process.addressSpace.stackSize,
    translate m.kernel.tables m.pages.pageTableRoot (m.process.addressSpace.stackBase + i) =
      some ⟨m.pages.stackBacking + i, true, true, false⟩
  kernel : ∀ (calls : List HostedCall) (a : Nat),
    translate (calls.foldl (Memory.Kernel.hosted m.pages.pageTableRoot) m.kernel).tables
      m.kernel.pml4 a = translate m.kernel.tables m.kernel.pml4 a

theorem Mapped.userReaches (h : Mapped m) {a : Nat}
    (ha : a ∈ m.process.addressSpace.image ∪ m.process.addressSpace.stack) : UserReaches m a := by
  obtain ⟨phys, executable, hx⟩ := h.userMapped ha
  exact ⟨_, hx, rfl⟩

/-- The pages of a range of whole pages in the lower half of the addresses. -/
theorem mem_of_inPages {base size a : Nat} (ha : Canonical a)
    (hin : Memory.InPages base size a) (hbase : base % pageSize = 0) (hsize : size % pageSize = 0)
    (hlimit : base + size ≤ 2 ^ 47) : a ∈ Set.Ico base (base + size) := by
  obtain ⟨hlow, hhigh⟩ := hin
  simp only [Memory.alignDownPage, Memory.alignDownUintptr, Memory.alignUpPage,
    Memory.alignUpUintptr, Memory.pageSize] at hlow hhigh
  simp only [pageSize] at hbase hsize
  rw [Nat.mod_eq_of_lt (a := base + size + 4096 - 1) (by omega)] at hhigh
  unfold Canonical at ha
  rw [Set.mem_Ico]
  omega

theorem Secluded.mem (h : Secluded m) (hmapped : Mapped m) {a : Nat} (ha : Canonical a)
    (hreaches : UserReaches m a) :
    a ∈ m.process.addressSpace.image ∪ m.process.addressSpace.stack := by
  obtain ⟨x, hx, huser⟩ := hreaches
  have hplaced := hmapped.placed
  rcases h.only a x hx huser with himage | hstack
  · have hlimit : processAbiImageLimit ≤ 2 ^ 47 := by decide
    exact .inl (mem_of_inPages ha himage hplaced.aligned h.whole (hplaced.le_limit.trans hlimit))
  · rw [hplaced.stackBase, hplaced.stackSize] at hstack
    refine .inr ?_
    rw [ProcessAddressSpace.stack, hplaced.stackBase, hplaced.stackSize]
    exact mem_of_inPages ha hstack (by decide) (by decide) (by decide)

theorem Running.isolated (h : Running blocks m) (hsecluded : Secluded m) : Isolated m := by
  constructor
  · exact fun a ha => ⟨hsecluded.mem h.mapped ha, h.mapped.userReaches⟩
  · exact h.mapped.image
  · exact h.mapped.stack
  · exact fun calls a => (h.kept.hosting h.mapped.root).hosted_kernel a calls

/-- A program that the loader has accepted, in whatever state the kernel's page table is: it is
isolated from the moment on at which it is entered. Neither do the calls of the loader that map its
ranges change a translation of the kernel's root, whether they succeed or not. -/
theorem isolated_of_start (h : Between s.kernel blocks) :
    ((Memory.pagingCreateAddressSpace s.kernel).1 ≠ 0 → ∀ (calls : List HostedCall) (a : Nat),
      translate (calls.foldl (Memory.Kernel.hosted (Memory.pagingCreateAddressSpace s.kernel).1)
        (Memory.pagingCreateAddressSpace s.kernel).2).tables s.kernel.pml4 a =
          translate s.kernel.tables s.kernel.pml4 a) ∧
    ∀ call kernelRoot m₁ acts m, processStart call s = .ok kernelRoot m₁ →
      Runs ProgramStep m₁ acts m → Isolated m := by
  refine ⟨fun hne calls a => Memory.pagingCreateAddressSpace_kernel h.idle hne calls, ?_⟩
  intro call kernelRoot m₁ acts m hstart hrun
  have hentered := (processStart_ends h.idle).sat.of_ok hstart
  obtain ⟨hrunning, -⟩ := running_of_run hrun hentered.running hentered.kept
  exact hrunning.isolated (secluded_of_run hrun hentered.running hentered.secluded)

/-- The program of one instruction, when it is entered. -/
theorem isolated_of_start_sample : ∃ kernelRoot m,
    processStart sampleCall sampleBefore = .ok kernelRoot m ∧ Isolated m := by
  obtain ⟨kernelRoot, m, hstart⟩ := exists_ok_of_isOk
    (show (processStart sampleCall sampleBefore).isOk = true by decide +kernel)
  exact ⟨kernelRoot, m, hstart, (isolated_of_start (s := sampleBefore) sampleKernel_between).2
    sampleCall kernelRoot m [] m hstart (.nil m)⟩

end FunnyOS.Programs
